import Rollout.Proofs.Requests

/-!
# Histories

A session is driven by what is done to it, one deed after another: a formation is defined, a release
is rolled out or scaled, a cleanup task is started, comes to the end of its grace period or is
cancelled, and faults are laid in wait. A deed may fail, and the session goes on with what it did
until then.

`Deed.IsLegal app` says that a deed is about one application, that its inputs are typed, and that
its faults leave the job store and the event log alone. `Session.InOrder app opened session ledger`
is what holds of a session at every time if only legal deeds were done: its world shows a ledger
that is sound and on whose names scheduler and store agree, its formations are typed, and its tasks
retire jobs of the application. `Session.InOrder.follow` says that it is never lost.

Beside that, each deed has a lemma that says more precisely what it does, for those who need to know
what became of one release: `perform_rollOut_cases`, `perform_scale_cases` and
`perform_elapse_cases`.
-/

namespace Rollout

/-- What a scheduler in memory runs. -/
def World.definitions (world : World) : Named Definition :=
  match world.scheduler with
  | .memory memory => memory.jobs
  | .adapter _ => []

/-! ### Grace periods -/

/-- How long can be waited where moments are counted in nanoseconds of 64 bits: just under three
hundred years. -/
def WaitLimit.ofNanoseconds : WaitLimit := .upTo (.ofRatio false 9223372036 1)

/-- The grace period that a policy asks for can be waited for. A policy that asks for no number of
seconds passes as well: no cleanup comes of it, so nothing has to be waited for. -/
def Policy.hasGraceWithin (limit : WaitLimit) (policy : Policy) : Bool :=
  (Cleanup.secondsOf policy.grace).toOption.all fun grace => limit.admits grace

theorem Policy.admits_of_hasGraceWithin {limit : WaitLimit} {policy : Policy} {grace : Binary64}
    (h : policy.hasGraceWithin limit = true) (hgrace : Cleanup.secondsOf policy.grace = .ok grace) :
    limit.admits grace = true := by
  rw [hasGraceWithin, hgrace] at h
  exact h

/-! ### Steps of a session -/

namespace Session

variable {α β : Type} {session : Session}

/-- What a step answers, and the session afterwards. A step that fails has a session afterwards too,
which is the one that the next step finds: nothing is rolled back. -/
def perform (step : Step α) (session : Session) : Except Failure α × Session := step.run.run session

/-- The second step goes on where the first one ended, unless that failed. -/
theorem perform_bind (step : Step α) (next : α → Step β) (session : Session) :
    session.perform (step >>= next) =
      match session.perform step with
      | (.ok value, after) => after.perform (next value)
      | (.error failure, after) => (.error failure, after) := by
  -- A step is a state monad under exceptions; the outer layer is taken off, and the cases are those
  -- of what the first step came to.
  show (do let result ← step.run; ExceptT.bindCont next result : StateM Session _).run session = _
  rw [StateT.run_bind, perform]
  show ExceptT.bindCont next (step.run.run session).1 (step.run.run session).2 = _
  rcases step.run.run session with ⟨failure | value, after⟩ <;> rfl

theorem perform_map (step : Step α) (f : α → β) (session : Session) :
    session.perform (step >>= fun value => pure (f value)) =
      ((session.perform step).1.map f, (session.perform step).2) := by
  rw [perform_bind]
  rcases session.perform step with ⟨_ | _, _⟩ <;> rfl

theorem perform_get (session : Session) :
    session.perform (get : Step Session) = (.ok session, session) := rfl

theorem perform_modify (change : Session → Session) (session : Session) :
    session.perform (modify change : Step Unit) = (.ok (), change session) := rfl

theorem perform_opened {opened : Opened} (h : session.opened = some opened) :
    session.perform Step.opened = (.ok opened, session) := by
  rw [Step.opened, perform_bind, perform_get]
  dsimp only
  rw [h]
  rfl

theorem perform_onWorld (work : World → Except Failure α × World) (session : Session) :
    session.perform (Step.onWorld work) =
      ((work session.world).1, { session with world := (work session.world).2 }) := rfl

/-- A formation is found by what it is called, or not. -/
theorem perform_formation (name : Value) (session : Session) :
    session.perform (Step.formation name) =
      match session.formation? name with
      | some formation => (.ok formation, session)
      | none => (.error .unknownKey, session) := by
  rw [Step.formation, perform_bind, perform_get]
  dsimp only
  cases session.formation? name <;> rfl

/-- Something is done to a task that is there. -/
theorem perform_onTask (work : Task → World → Task × World) {number : Nat} {task : Task}
    (h : session.tasks[number]? = some task) :
    session.perform (Step.onTask number work) =
      (.ok (), { session with
        world := (work task session.world).2
        tasks := session.tasks.set number (work task session.world).1 }) := by
  rw [Step.onTask, perform_modify, h]

theorem perform_onTask_none (work : Task → World → Task × World) {number : Nat}
    (h : session.tasks[number]? = none) :
    session.perform (Step.onTask number work) = (.ok (), session) := by
  rw [Step.onTask, perform_modify, h]

end Session

/-! ### Deeds -/

/-- What is done to a session in the life of an application: a formation is called by a name, a
release is rolled out or scaled with the formation of a name, a task is started, comes to the end of
its grace period or is cancelled, and faults are laid in wait, in the place of those that lay there.

A deed is the whole of an operation. That operations of two parties may also take turns call by call
is another matter, and has relations of its own. -/
inductive Deed where
  | define (name : Value) (formation : Formation)
  | release (blueprint : Blueprint) (name : Value)
  | scale (blueprint : Blueprint) (quantities : List (Value × Value)) (name : Value)
  | start (number : Nat)
  | elapse (number : Nat)
  | cancel (number : Nat)
  | arm (faults : List Fault)

namespace Deed

/-- The deed as a step of a session. -/
def step : Deed → Step Unit
  | define name formation => Step.keepFormation name formation
  | release blueprint name => do
    let _ ← Step.rollOut blueprint name
  | scale blueprint quantities name => Step.scale blueprint quantities name
  | start number => Step.onTask number Task.start
  | elapse number => Step.onTask number Task.elapse
  | cancel number => Step.onTask number Task.cancel
  | arm faults => Step.setFaults faults

/-- The deed is about the application, its inputs are typed, and its faults leave the job store and
the event log alone. Nothing is asked of when a deed comes or whether it succeeds: a task may be
started twice or not at all, and a number may be of no task. -/
def IsLegal (app : String) : Deed → Prop
  | define _ formation => formation.IsTyped
  | release blueprint _ => blueprint.IsTyped app
  | scale blueprint quantities _ => blueprint.IsTyped app ∧ World.FitQuantities quantities
  | start _ | elapse _ | cancel _ => True
  | arm faults => ∀ fault ∈ faults, fault.point ∈ [Point.list, .add, .remove, .log] →
      fault.failure = none

/-- The number of the task that the deed sets going, in one way or another. -/
def task? : Deed → Option Nat
  | start number | elapse number | cancel number => some number
  | define _ _ | release _ _ | scale _ _ _ | arm _ => none

end Deed

namespace Session

/-- The session after a deed, whether it failed or not. The answer is dropped: whoever does the next
deed has not looked at it. -/
def afterDeed (session : Session) (deed : Deed) : Session := (session.perform deed.step).2

/-- The session after a history of deeds. -/
def follow (history : List Deed) (session : Session) : Session := history.foldl afterDeed session

@[simp] theorem follow_nil (session : Session) : session.follow [] = session := rfl

@[simp] theorem follow_cons (deed : Deed) (rest : List Deed) (session : Session) :
    session.follow (deed :: rest) = (session.afterDeed deed).follow rest := rfl

theorem perform_release (blueprint : Blueprint) (name : Value) (session : Session) :
    session.perform (Deed.release blueprint name).step =
      ((session.perform (Step.rollOut blueprint name)).1.map fun _ => (),
        (session.perform (Step.rollOut blueprint name)).2) :=
  perform_map _ _ session

theorem afterDeed_release (blueprint : Blueprint) (name : Value) (session : Session) :
    session.afterDeed (.release blueprint name) =
      (session.perform (Step.rollOut blueprint name)).2 :=
  congrArg (·.2) (perform_release blueprint name session)

/-! ### Sessions in order -/

/-- The session is in order for an application, and its world shows the ledger. The first four
fields are about the world and what lies in wait there, `sound` and `agrees` are about the ledger,
and the last two are about what the session keeps to use later: formations that operations are
given, and tasks that have names to retire. The policy of `opened` is free. -/
structure InOrder (app : String) (opened : Opened) (session : Session)
    (ledger : Ledger) : Prop where
  isOpen : session.opened = some opened
  shows : session.world.Shows opened ledger
  idle : session.world.cancelled = none
  spares : session.world.SparesStores
  sound : ledger.IsSound
  agrees : ledger.Agrees app
  formations : ∀ entry ∈ session.formations, entry.2.IsTyped
  tasks : ∀ task ∈ session.tasks, task.IsOf app opened

/-- The tracked names, as the job store tells them. -/
def tracked (session : Session) : List String := (session.perform Step.tracked).1.toOption.getD []

/-- The tracked jobs of an application, as the job store tells them. -/
def listed (app : String) (session : Session) : List Job :=
  (session.perform (Step.listJobs (.text app))).1.toOption.getD []

/-- What is wanted of process types, as the process store tells it. -/
def wanted (session : Session) : List (String × String × Cell) :=
  (session.perform Step.wanted).1.toOption.getD []

variable {app : String} {opened : Opened} {session after : Session} {ledger moved : Ledger}

/-! ### What a session shows -/

/-- The names that are tracked are those of the ledger. -/
theorem tracked_of_shows (hopened : session.opened = some opened)
    (hshows : session.world.Shows opened ledger) : session.tracked = ledger.tracked := by
  obtain ⟨place, database, hkeeps, hrows⟩ := hshows.jobs
  rw [Session.tracked, Step.tracked, perform_bind, perform_opened hopened]
  show Option.getD (Except.toOption (JobStore.names session.world.site opened.jobs
    session.world.files).1) [] = _
  rw [JobStore.names_apply hkeeps, hrows]
  rfl

/-- The jobs that are listed are what the rows of the ledger read back as. Each of the rows can be
read, since the ledger is sound, so the listing does not fail. -/
theorem listed_of_shows (hopened : session.opened = some opened)
    (hshows : session.world.Shows opened ledger) (hsound : ledger.IsSound)
    (hspares : session.world.Spares .list) (app : String) :
    (ledger.rowsOf app).mapM JobRow.job? = .ok (session.listed app) := by
  obtain ⟨jobs, hjobs, -⟩ := hsound.exists_listed app
  rw [hjobs, listed, Step.listJobs, perform_bind, perform_opened hopened]
  dsimp only
  rw [Step.act, perform_onWorld]
  -- Listing is one call, and the world answers it from the rows of the ledger.
  cases hrun : World.run opened.stores (Action.list (.text app)).attempt session.world with
  | mk answer world =>
    obtain ⟨-, -, hanswer⟩ := World.answer_list opened.serve_stores hshows hspares hrun
    rw [hjobs] at hanswer
    rw [hanswer]
    rfl

/-- What is wanted is what the ledger says. -/
theorem wanted_of_shows (hopened : session.opened = some opened)
    (hshows : session.world.Shows opened ledger) :
    session.wanted = ledger.processes.map fun row => (row.app, row.type, row.quantity) := by
  obtain ⟨place, database, hkeeps, hrows⟩ := hshows.processes
  rw [Session.wanted, Step.wanted, perform_bind, perform_opened hopened]
  show Option.getD (Except.toOption (ProcessStore.entries session.world.site opened.processes
    session.world.files).1) [] = _
  rw [ProcessStore.entries_apply hkeeps, hrows]
  rfl

theorem definitions_of_shows {world : World} (h : world.Shows opened ledger) :
    world.definitions = ledger.definitions := by
  obtain ⟨machine, hmemory⟩ := h.memory
  rw [World.definitions, hmemory]

theorem scheduled_of_shows {world : World} (h : world.Shows opened ledger) :
    world.scheduled = ledger.scheduled := by
  obtain ⟨machine, hmemory⟩ := h.memory
  rw [World.scheduled, hmemory]
  rfl

namespace InOrder

theorem tracked_eq (h : session.InOrder app opened ledger) : session.tracked = ledger.tracked :=
  tracked_of_shows h.isOpen h.shows

theorem wanted_eq (h : session.InOrder app opened ledger) :
    session.wanted = ledger.processes.map fun row => (row.app, row.type, row.quantity) :=
  wanted_of_shows h.isOpen h.shows

theorem definitions_eq (h : session.InOrder app opened ledger) :
    session.world.definitions = ledger.definitions := definitions_of_shows h.shows

theorem scheduled_eq (h : session.InOrder app opened ledger) :
    session.world.scheduled = ledger.scheduled := scheduled_of_shows h.shows

theorem isTyped_formation (h : session.InOrder app opened ledger) {name : Value}
    {formation : Formation} (hformation : session.formation? name = some formation) :
    formation.IsTyped := by
  obtain ⟨entry, hmem, rfl⟩ := Value.exists_mem_of_find? hformation
  exact h.formations entry hmem

/-- A session stays in order when its world moves on. Soundness and agreement need no proof of their
own, since moves keep both; what is left to show is that the world followed and that the tasks are
still tasks of the application. -/
theorem moveOn (h : session.InOrder app opened ledger) {world : World} {tasks : List Task}
    (hfollows : session.world.Follows world) (hidle : world.cancelled = none)
    (hshows : world.Shows opened moved) (hmoves : Ledger.Moves app ledger moved)
    (htasks : ∀ task ∈ tasks, task.IsOf app opened) :
    ({ session with world, tasks } : Session).InOrder app opened moved where
  isOpen := h.isOpen
  shows := hshows
  idle := hidle
  spares := hfollows.sparesStores h.spares
  sound := Ledger.isSound_of_moves hmoves h.sound
  agrees := Ledger.agrees_of_moves hmoves h.agrees
  formations := h.formations
  tasks := htasks

/-- A session stays in order when it keeps a typed formation. -/
theorem keepFormation (h : session.InOrder app opened ledger) (name : Value) {formation : Formation}
    (hformation : formation.IsTyped) :
    ({ session with
      formations := Value.insert name formation session.formations } : Session).InOrder
      app opened ledger := by
  obtain ⟨hopened, hshows, hidle, hspares, hsound, hagrees, hformations, htasks⟩ := h
  refine ⟨hopened, hshows, hidle, hspares, hsound, hagrees, ?_, htasks⟩
  intro entry hmem
  rcases Value.mem_insert hmem with hold | hnew
  · exact hformations entry hold
  · rw [hnew]
    exact hformation

/-- Tasks stay tasks of the application when one of them goes on. -/
theorem isOf_set (h : session.InOrder app opened ledger) {number : Nat} {task ended : Task}
    (htask : session.tasks[number]? = some task) (hsame : ended.SameAs task) :
    ∀ other ∈ session.tasks.set number ended, other.IsOf app opened := by
  intro other hmem
  rcases List.mem_or_eq_of_mem_set hmem with hold | rfl
  · exact h.tasks other hold
  · exact (h.tasks task (List.mem_of_getElem? htask)).of_sameAs hsame

end InOrder

/-! ### Rolling out -/

/-- What a cleanup is made of. -/
theorem cleanup_of_make? {stale : List Job} {grace retries delay : Value} {release : Release}
    {events : Value} {cleanup : Cleanup}
    (h : Cleanup.make? stale grace retries delay release events = .ok cleanup) :
    cleanup.stale = stale ∧ cleanup.release = release ∧ cleanup.events = events := by
  obtain ⟨_, -, h⟩ := bind_eq_ok.mp h
  obtain ⟨_, -, h⟩ := bind_eq_ok.mp h
  obtain ⟨_, -, h⟩ := bind_eq_ok.mp h
  obtain rfl := Except.ok.inj h
  exact ⟨rfl, rfl, rfl⟩

/-- The grace period of a cleanup is the one that was asked for. -/
theorem secondsOf_grace_of_make? {stale : List Job} {grace retries delay : Value}
    {release : Release} {events : Value} {cleanup : Cleanup}
    (h : Cleanup.make? stale grace retries delay release events = .ok cleanup) :
    Cleanup.secondsOf grace = .ok cleanup.grace := by
  obtain ⟨seconds, hseconds, h⟩ := bind_eq_ok.mp h
  obtain ⟨_, -, h⟩ := bind_eq_ok.mp h
  obtain ⟨_, -, h⟩ := bind_eq_ok.mp h
  obtain rfl := Except.ok.inj h
  exact hseconds

/-- The task of such a cleanup retires jobs of the application. Its names are those that were
tracked when the rollout began, and what it will log fits into the event log. -/
theorem isOf_ofCleanup {blueprint : Blueprint} {cleanup : Cleanup}
    (hblueprint : blueprint.IsTyped app)
    (hsound : ledger.IsSound) (hrelease : cleanup.release = blueprint.release)
    (hevents : cleanup.events = opened.policy.events)
    (hnames : Job.NamesOf cleanup.stale (ledger.trackedOf app)) :
    (Task.ofCleanup (some opened.jobs) cleanup).IsOf app opened := by
  refine ⟨rfl, hevents, ?_, ?_⟩
  · intro level message
    rw [Task.cleanup_ofCleanup, hrelease]
    exact Blueprint.isStorable_event hblueprint level message
  · intro job hmem
    obtain ⟨name, hname, hjob⟩ := Job.exists_name_of_mem hnames hmem
    exact ⟨name, hjob, (hsound.mem_trackedOf.mp hname).1⟩

theorem perform_addTask (jobs : Option Value) (cleanup : Cleanup) (session : Session) :
    session.perform (Step.addTask jobs cleanup) = (.ok session.tasks.length,
      { session with tasks := session.tasks ++ [.ofCleanup jobs cleanup] }) := rfl

/-- In an open session a rollout of a known formation runs in the world, and its cleanup becomes a
task, which is started. -/
theorem perform_rollOut {blueprint : Blueprint} {name : Value} {formation : Formation}
    (hopened : session.opened = some opened)
    (hformation : session.formation? name = some formation) :
    session.perform (Step.rollOut blueprint name) = session.perform do
      let cleanup ← Step.act opened.stores (rollOut opened.policy blueprint formation)
      let number ← Step.addTask (some opened.jobs) cleanup
      Step.onTask number Task.start
      return number := by
  rw [Step.rollOut, perform_bind, perform_opened hopened]
  dsimp only
  rw [perform_bind, perform_formation, hformation]

/-- A rollout that fails in the world leaves the tasks alone: no cleanup comes of it, and so there
is none to add. -/
theorem perform_rollOut_of_error {blueprint : Blueprint} {name : Value} {formation : Formation}
    {failure : Failure} {world : World} (hopened : session.opened = some opened)
    (hformation : session.formation? name = some formation)
    (hrun : World.run opened.stores (rollOut opened.policy blueprint formation).attempt
      session.world = (.error failure, world)) :
    session.perform (Step.rollOut blueprint name) = (.error failure, { session with world }) := by
  rw [perform_rollOut hopened hformation, perform_bind, Step.act, perform_onWorld, hrun]

/-- A rollout that succeeds in the world answers with the number of a new task, which is started. -/
theorem perform_rollOut_of_ok {blueprint : Blueprint} {name : Value} {formation : Formation}
    {cleanup : Cleanup} {between world : World} {task : Task}
    (hopened : session.opened = some opened) (hformation : session.formation? name = some formation)
    (hrun : World.run opened.stores (rollOut opened.policy blueprint formation).attempt
      session.world = (.ok cleanup, between))
    (hstart : (Task.ofCleanup (some opened.jobs) cleanup).start between = (task, world)) :
    session.perform (Step.rollOut blueprint name) =
      (.ok session.tasks.length, { session with world, tasks := session.tasks ++ [task] }) := by
  -- The rollout ran in the world, and what it answered is the cleanup.
  rw [perform_rollOut hopened hformation, perform_bind, Step.act, perform_onWorld, hrun]
  dsimp only
  -- the new task stands at the end of the tasks, and is started there
  rw [perform_bind, perform_addTask]
  dsimp only
  rw [perform_bind, perform_onTask Task.start List.getElem?_concat_length]
  dsimp only
  rw [hstart, List.set_append_right _ _ (Nat.le_refl _), Nat.sub_self, List.set_cons_zero]
  rfl

/-- A release was rolled out: all of its jobs were placed, and a task that has the names from before
waits for its grace period to end or has run already. It runs at once where the wait is not for
anything, or where a fault or a cancellation met it there, and `calm` is the condition under which
nothing of the kind happens. -/
structure RolledOut (app : String) (blueprint : Blueprint) (formation : Formation) (calm : Prop)
    (ledger placed moved : Ledger) (task : Task) : Prop where
  jobs : ∃ jobs, blueprint.jobs formation = .ok jobs ∧ Ledger.Placed jobs ledger placed
  stale : Job.NamesOf task.cleanup.stale (ledger.trackedOf app)
  undisturbed : calm → task.cancelled = false
  begun : task.status = .waiting ∧ task.progress = .initial ∧ moved = placed ∨
    Task.Ran calm placed moved (ledger.trackedOf app) .initial task

/-- After a rollout the jobs are placed, and what is gone since then was tracked before. -/
theorem RolledOut.exists_gone {blueprint : Blueprint} {formation : Formation} {calm : Prop}
    {placed : Ledger} {task : Task}
    (h : RolledOut app blueprint formation calm ledger placed moved task) :
    ∃ jobs gone, blueprint.jobs formation = .ok jobs ∧ Ledger.Placed jobs ledger placed ∧
      moved = placed.retireAll gone ∧ ∀ given ∈ gone, given ∈ ledger.trackedOf app := by
  obtain ⟨jobs, hjobs, hplaced⟩ := h.jobs
  rcases h.begun with ⟨-, -, rfl⟩ | hran
  · exact ⟨jobs, [], hjobs, hplaced, (Ledger.retireAll_nil _).symm, fun _ hmem => nomatch hmem⟩
  · obtain ⟨gone, left, hsplit, rfl, -⟩ := hran.gave
    -- a task that ran took away an initial part of its names
    exact ⟨jobs, gone, hjobs, hplaced, rfl,
      fun given hmem => hsplit ▸ List.mem_append_left _ hmem⟩

/-- Once the jobs of a release are placed, starting the task of its cleanup completes the rollout:
the task waits, or it has run already and taken away names of its own. -/
theorem RolledOut.exists_of_start {blueprint : Blueprint} {formation : Formation} {calm : Prop}
    {placed : Ledger} {cleanup : Cleanup} {task : Task} {world started : World}
    (hof : (Task.ofCleanup (some opened.jobs) cleanup).IsOf app opened)
    (hnames : Job.NamesOf cleanup.stale (ledger.trackedOf app)) (hsound : ledger.IsSound)
    (hjobs : ∃ jobs, blueprint.jobs formation = .ok jobs ∧ Ledger.Placed jobs ledger placed)
    (hshows : world.Shows opened placed) (hidle : world.cancelled = none)
    (hspares : world.SparesStores)
    (hcalm : calm → world.Calm ∧ world.waitLimit.admits cleanup.grace = true)
    (hstart : (Task.ofCleanup (some opened.jobs) cleanup).start world = (task, started)) :
    ∃ moved, world.Follows started ∧ started.cancelled = none ∧ started.Shows opened moved ∧
      task.IsOf app opened ∧ Ledger.Moves app placed moved ∧
      RolledOut app blueprint formation calm ledger placed moved task := by
  obtain ⟨hfollows, hidle', hsame, hcancelled, hbegun⟩ :=
    Task.start_cases hof hnames hshows hidle hspares hstart
  have hstale : Job.NamesOf task.cleanup.stale (ledger.trackedOf app) := by
    rw [hsame.cleanup]
    exact hnames
  have hundisturbed : calm → task.cancelled = false := fun calm =>
    hcancelled (hcalm calm).1 (hcalm calm).2 rfl
  rcases hbegun with ⟨hwaiting, hprogress, hshown⟩ | ⟨moved, hshown, hran⟩
  · exact ⟨placed, hfollows, hidle', hshown, hof.of_sameAs hsame, .refl, hjobs, hstale,
      hundisturbed, .inl ⟨hwaiting, hprogress, rfl⟩⟩
  · -- the names that were taken away are names of the application, so that these are moves
    exact ⟨moved, hfollows, hidle', hshown, hof.of_sameAs hsame,
      hran.moves fun name hmem => (hsound.mem_trackedOf.mp hmem).1, hjobs, hstale, hundisturbed,
      .inr (hran.imp fun calm => ⟨(hcalm calm).1, (hcalm calm).2, rfl⟩)⟩

/-- **What rolling a release out does to a session.** It fails and there is no new task, or it
answers with the number of a task and the release was rolled out. In both cases moves were made and
the session is in order. -/
theorem perform_rollOut_cases {blueprint : Blueprint} {name : Value} {result : Except Failure Nat}
    (h : session.InOrder app opened ledger) (hblueprint : blueprint.IsTyped app)
    (hrun : session.perform (Step.rollOut blueprint name) = (result, after)) :
    ∃ moved, after.InOrder app opened moved ∧ Ledger.Moves app ledger moved ∧
      session.world.Follows after.world ∧ after.formations = session.formations ∧
      ((∃ failure, result = .error failure ∧ after.tasks = session.tasks) ∨
        ∃ formation placed task, result = .ok session.tasks.length ∧
          session.formation? name = some formation ∧ after.tasks = session.tasks ++ [task] ∧
          RolledOut app blueprint formation
            (session.world.Calm ∧ opened.policy.hasGraceWithin session.world.waitLimit = true)
            ledger placed moved task) := by
  -- The formation has to be known before the world is asked for anything.
  cases hformation : session.formation? name with
  | none =>
    rw [Step.rollOut, perform_bind, perform_opened h.isOpen] at hrun
    dsimp only at hrun
    rw [perform_bind, perform_formation, hformation] at hrun
    obtain ⟨rfl, rfl⟩ := Prod.mk.inj hrun
    exact ⟨ledger, h, .refl, .refl _, rfl, .inl ⟨_, rfl, rfl⟩⟩
  | some formation =>
    cases hrolled : World.run opened.stores
        (rollOut opened.policy blueprint formation).attempt session.world with
    | mk rolled world₁ =>
      -- A known formation is typed, so the rollout in the world is one of those that were looked at
      -- there.
      obtain ⟨hfollows₁, placed, hshown₁, hmoves₁, hrolledOut⟩ :=
        World.rollOut_cases opened.serve_stores
        h.shows h.sound h.spares hblueprint (h.isTyped_formation hformation) hrolled
      have hidle₁ := hfollows₁.idle h.idle
      cases rolled with
      | error failure =>
        -- the rollout failed: moves may have been made, and there is no task
        rw [perform_rollOut_of_error h.isOpen hformation hrolled] at hrun
        obtain ⟨rfl, rfl⟩ := Prod.mk.inj hrun
        exact ⟨placed, h.moveOn hfollows₁ hidle₁ hshown₁ hmoves₁ h.tasks, hmoves₁, hfollows₁, rfl,
          .inl ⟨failure, rfl, rfl⟩⟩
      | ok cleanup =>
        -- the cleanup was made of the jobs that were tracked when the rollout began
        obtain ⟨stale, jobs, hstale, hjobs, hplaced, hmake⟩ := hrolledOut cleanup rfl
        obtain ⟨rfl, hrelease, hevents⟩ := cleanup_of_make? hmake
        have hnames := h.sound.namesOf_listed hstale
        have hof := isOf_ofCleanup hblueprint h.sound hrelease hevents hnames
        cases hstart : (Task.ofCleanup (some opened.jobs) cleanup).start world₁ with
        | mk task world₂ =>
          rw [perform_rollOut_of_ok h.isOpen hformation hrolled hstart] at hrun
          obtain ⟨rfl, rfl⟩ := Prod.mk.inj hrun
          -- placing jobs brings no new faults and no other limit, so what was calm still is, and
          -- the grace period that the policy asks for can still be waited for
          have hcalm (hcalm : session.world.Calm ∧
              opened.policy.hasGraceWithin session.world.waitLimit = true) :
              world₁.Calm ∧ world₁.waitLimit.admits cleanup.grace = true := by
            refine ⟨hfollows₁.calm hcalm.1, ?_⟩
            rw [hfollows₁.waitLimit]
            exact Policy.admits_of_hasGraceWithin hcalm.2 (secondsOf_grace_of_make? hmake)
          obtain ⟨moved, hfollows₂, hidle₂, hshown₂, htask, hmoves₂, hout⟩ :=
            RolledOut.exists_of_start hof hnames h.sound ⟨jobs, hjobs, hplaced⟩ hshown₁ hidle₁
              (hfollows₁.sparesStores h.spares) hcalm hstart
          have htasks : ∀ other ∈ session.tasks ++ [task], other.IsOf app opened := by
            intro other hmem
            rcases List.mem_append.mp hmem with hold | hnew
            · exact h.tasks other hold
            · exact List.mem_singleton.mp hnew ▸ htask
          have hfollows := hfollows₁.trans hfollows₂
          have hmoves := hmoves₁.trans hmoves₂
          exact ⟨moved, h.moveOn hfollows hidle₂ hshown₂ hmoves htasks, hmoves, hfollows, rfl,
            .inr ⟨formation, placed, task, rfl, rfl, rfl, hout⟩⟩

/-! ### Scaling -/

/-- Scaling keeps the formation that it ends with, whatever the ending is. -/
theorem perform_scaleBy_of_some {ν : Type} {validator : Validator ν} {blueprint : Blueprint}
    {quantities : List (ν × ν)} {name : Value} {formation : Formation} {scaled : Scale.Result}
    {world : World} (hopened : session.opened = some opened)
    (hformation : session.formation? name = some formation)
    (hrun : World.run opened.stores (Scale.scaleBy validator blueprint quantities formation)
      session.world = (scaled, world)) :
    session.perform (Step.scaleBy validator blueprint quantities name) =
      (scaled.ending, { session with
        world, formations := Value.insert name scaled.formation session.formations }) := by
  -- The steps in their order; the last one hands on the ending, which may be a failure.
  rw [Step.scaleBy, perform_bind, perform_formation, hformation]
  dsimp only
  rw [perform_bind, perform_opened hopened]
  dsimp only
  rw [perform_bind, perform_onWorld, hrun]
  dsimp only
  rw [perform_bind]
  rfl

/-- The same for the request validation of the program itself. -/
theorem perform_scale_of_some {blueprint : Blueprint} {quantities : List (Value × Value)}
    {name : Value} {formation : Formation} {scaled : Scale.Result} {world : World}
    (hopened : session.opened = some opened) (hformation : session.formation? name = some formation)
    (hrun : World.run opened.stores (Scale.scale blueprint quantities formation) session.world =
      (scaled, world)) :
    session.perform (Step.scale blueprint quantities name) = (scaled.ending, { session with
      world, formations := Value.insert name scaled.formation session.formations }) :=
  perform_scaleBy_of_some hopened hformation hrun

/-- A request that is not valid is refused, and nothing is done. -/
theorem perform_scaleBy_of_invalid {ν : Type} {validator : Validator ν} {blueprint : Blueprint}
    {quantities : List (ν × ν)} {name : Value} {formation : Formation} {issues : List Issue}
    (hopened : session.opened = some opened) (hformation : session.formation? name = some formation)
    (hissues : validator.validate quantities = .error issues) :
    session.perform (Step.scaleBy validator blueprint quantities name) =
      (.error (.invalidQuantities issues), session) := by
  have hrun : World.run opened.stores (Scale.scaleBy validator blueprint quantities formation)
      session.world = (⟨formation, .error (.invalidQuantities issues)⟩, session.world) := by
    rw [Scale.scaleBy, hissues]
    rfl
  rw [perform_scaleBy_of_some hopened hformation hrun]
  dsimp only
  -- the formation is kept as it was found
  rw [Value.insert_of_find? hformation]

/-- The program's own request validation refuses with the issues that it found. -/
theorem perform_scale_of_invalid {blueprint : Blueprint} {quantities : List (Value × Value)}
    {name : Value} {formation : Formation} {issues : List Issue}
    (hopened : session.opened = some opened) (hformation : session.formation? name = some formation)
    (hissues : ScaleRequest.ofEntries quantities = .error issues) :
    session.perform (Step.scale blueprint quantities name) =
      (.error (.invalidQuantities issues), session) := by
  refine perform_scaleBy_of_invalid hopened hformation ?_
  -- The validator is the request validation, with its numbers as integers.
  show (ScaleRequest.ofEntries quantities).map ScaleRequest.toIntegers = _
  rw [hissues]
  rfl

/-- **What scaling a release does to a session**: there is no formation, or the request is not
valid, or it is worked off up to an entry at which it is stopped. The formation is kept in every
case. -/
theorem perform_scale_cases {blueprint : Blueprint} {quantities : List (Value × Value)}
    {name : Value} {result : Except Failure Unit} (h : session.InOrder app opened ledger)
    (hblueprint : blueprint.IsTyped app) (hfits : World.FitQuantities quantities)
    (hrun : session.perform (Step.scale blueprint quantities name) = (result, after)) :
    ∃ moved, after.InOrder app opened moved ∧ Ledger.Moves app ledger moved ∧
      session.world.Follows after.world ∧ after.tasks = session.tasks ∧
      ((session.formation? name = none ∧ result = .error .unknownKey ∧ after = session) ∨
        ∃ formation scaled, session.formation? name = some formation ∧
          after.formation? name = some scaled ∧
          ((∃ issues, ScaleRequest.ofEntries quantities = .error issues ∧
              result = .error (.invalidQuantities issues) ∧ moved = ledger ∧ scaled = formation) ∨
            ∃ request done rest middle between, ScaleRequest.ofEntries quantities = .ok request ∧
              request = done ++ rest ∧
              Ledger.Scaled app blueprint done ledger formation middle between ∧
              (rest = [] ∧ result = .ok () ∧ moved = middle ∧ scaled = between ∨
                ∃ type target tail failure, rest = (type, target) :: tail ∧
                  result = .error failure ∧
                  Ledger.Stopped app blueprint session.world.SparesScheduler
                    (session.world.Spares .update) type target middle between moved scaled))) := by
  cases hformation : session.formation? name with
  | none =>
    rw [Step.scale, Step.scaleBy, perform_bind, perform_formation, hformation] at hrun
    obtain ⟨rfl, rfl⟩ := Prod.mk.inj hrun
    exact ⟨ledger, h, .refl, .refl _, rfl, .inl ⟨rfl, rfl, rfl⟩⟩
  | some formation =>
    cases hscaled : World.run opened.stores (Scale.scale blueprint quantities formation)
        session.world with
    | mk scaled world₁ =>
      rw [perform_scale_of_some h.isOpen hformation hscaled] at hrun
      obtain ⟨rfl, rfl⟩ := Prod.mk.inj hrun
      have htyped := h.isTyped_formation hformation
      obtain ⟨hfollows, hcase⟩ := World.scale_cases opened.serve_stores rfl h.shows h.sound h.spares
        hblueprint htyped hfits hscaled
      have hkept : Value.find? (Value.insert name scaled.formation session.formations) name =
          some scaled.formation := Value.find?_insert hformation
      -- whatever became of the request, moves were made and a typed formation was kept
      have hdone {moved : Ledger} (hshown : world₁.Shows opened moved)
          (hmoves : Ledger.Moves app ledger moved) (htyped : scaled.formation.IsTyped) :=
        (h.moveOn hfollows (hfollows.idle h.idle) hshown hmoves h.tasks).keepFormation name htyped
      -- Not valid, or worked off: up to the end, or up to the entry at which it was stopped.
      rcases hcase with ⟨issues, hissues, hshown, rfl⟩ | ⟨request, done, rest, middle, between,
          hrequest, rfl, hworked, hend⟩
      · exact ⟨ledger, hdone hshown .refl htyped, .refl, hfollows, rfl,
          .inr ⟨formation, formation, rfl, hkept, .inl ⟨issues, hissues, rfl, rfl, rfl⟩⟩⟩
      · have hfitting := hfits _ hrequest
        have hmoves := hworked.moves hblueprint.app
        -- the entries that were worked off leave a typed formation behind
        have hbetween := hworked.isTyped
          (fun entry hmem => hfitting entry (List.mem_append_left _ hmem)) htyped
        rcases hend with ⟨rfl, rfl, hshown⟩ | ⟨type, target, tail, failure, moved, rfl, hending,
            hshown, hstopped⟩
        · exact ⟨middle, hdone hshown hmoves hbetween, hmoves, hfollows, rfl,
            .inr ⟨formation, between,
            rfl, hkept, .inr ⟨_, done, [], middle, between, hrequest, rfl, hworked,
            .inl ⟨rfl, rfl, rfl, rfl⟩⟩⟩⟩
        · have htarget := hfitting (type, target) (List.mem_append_right _ List.mem_cons_self)
          have hmoves' := hmoves.trans (hstopped.moves hblueprint.app)
          exact ⟨moved, hdone hshown hmoves' (hstopped.isTyped htarget hbetween), hmoves',
            hfollows, rfl,
            .inr ⟨formation, scaled.formation, rfl, hkept, .inr ⟨_, done, _, middle, between,
              hrequest,
            rfl, hworked, .inr ⟨type, target, tail, failure, rfl, hending, hstopped⟩⟩⟩⟩

/-! ### Tasks -/

/-- **What the end of a grace period does to a session**: nothing, unless the task waits for it, and
then the task runs. How far it gets is left to `Task.Ran`; whether it was calm there depends on the
world and on the task not having been cancelled before. -/
theorem perform_elapse_cases {number : Nat} {result : Except Failure Unit}
    (h : session.InOrder app opened ledger)
    (hrun : session.perform (Step.onTask number Task.elapse) = (result, after)) :
    result = .ok () ∧
      ((after = session ∧ ∀ task, session.tasks[number]? = some task → task.status ≠ .waiting) ∨
        ∃ task ended names moved, session.tasks[number]? = some task ∧ task.status = .waiting ∧
          after.tasks = session.tasks.set number ended ∧ ended.SameAs task ∧
          Job.NamesOf task.cleanup.stale names ∧ (∀ name ∈ names, IsNameOf app name) ∧
          after.formations = session.formations ∧ after.InOrder app opened moved ∧
          session.world.Follows after.world ∧
          (session.world.Calm → task.cancelled = false → ended.cancelled = false) ∧
          Task.Ran (session.world.Calm ∧ task.cancelled = false) ledger moved names task.progress
            ended) := by
  -- A number that is of no task changes nothing.
  cases htask : session.tasks[number]? with
  | none =>
    rw [perform_onTask_none _ htask] at hrun
    obtain ⟨rfl, rfl⟩ := Prod.mk.inj hrun
    exact ⟨rfl, .inl ⟨rfl, fun _ hsome => nomatch hsome⟩⟩
  | some task =>
    rw [perform_onTask _ htask] at hrun
    obtain ⟨rfl, rfl⟩ := Prod.mk.inj hrun
    refine ⟨rfl, ?_⟩
    have hof := h.tasks task (List.mem_of_getElem? htask)
    obtain ⟨names, hnames, hall⟩ := hof.exists_names
    cases helapse : task.elapse session.world with
    | mk ended world =>
      -- A task that was not waiting is as it was, and so is the world.
      rcases Task.elapse_cases hof hnames h.shows h.idle h.spares helapse with
        ⟨hstatus, rfl, rfl⟩ | ⟨hstatus, hfollows, hidle, hsame, hcancelled, moved, hshown, hran⟩
      · refine .inl ⟨?_, ?_⟩
        -- setting a task to itself sets nothing
        · have hset : session.tasks.set number ended = session.tasks := by
            obtain ⟨hlt, rfl⟩ := List.getElem?_eq_some_iff.mp htask
            exact List.set_getElem_self hlt
          rw [hset]
        · rintro other hother
          obtain rfl := Option.some.inj hother
          exact hstatus
      · exact .inr ⟨task, ended, names, moved, rfl, hstatus, rfl, hsame, hnames, hall, rfl,
          h.moveOn hfollows hidle hshown (hran.moves hall) (h.isOf_set htask hsame), hfollows,
          hcancelled, hran⟩

/-- What became of a session when something was done to one of its tasks: names that the task was to
retire are gone, the formations are as they were, and the tasks are the same tasks. They are the
same in what they are to do, and the one that went on may have another status and may have been
cancelled. -/
structure TaskDone (app : String) (opened : Opened) (number : Nat) (session after : Session)
    (ledger : Ledger) (gone : List String) : Prop where
  inOrder : after.InOrder app opened (ledger.retireAll gone)
  follows : session.world.Follows after.world
  retired : ∀ given ∈ gone, ∃ task, session.tasks[number]? = some task ∧ task.Retires given
  formations : after.formations = session.formations
  tasks : ∀ (other : Nat) (task : Task), after.tasks[other]? = some task →
    ∃ earlier, session.tasks[other]? = some earlier ∧ task.SameAs earlier

/-- What is gone was given up in a number of moves. -/
theorem TaskDone.moves {number : Nat} {gone : List String}
    (h : TaskDone app opened number session after ledger gone)
    (horder : session.InOrder app opened ledger) :
    Ledger.Moves app ledger (ledger.retireAll gone) := by
  refine Ledger.moves_retireAll fun given hmem => ?_
  obtain ⟨task, htask, hretires⟩ := h.retired given hmem
  exact (horder.tasks task (List.mem_of_getElem? htask)).isNameOf_of_retires hretires

/-- Whatever is done to a task, the session stays in order, as long as the task stays the same and
gives up nothing but what it was to retire. -/
theorem InOrder.onTask (h : session.InOrder app opened ledger) (number : Nat)
    {work : Task → World → Task × World}
    (hwork : ∀ task ended world, task.IsOf app opened → work task session.world = (ended, world) →
      ended.SameAs task ∧ session.world.Follows world ∧ world.cancelled = none ∧
        ∃ gone, world.Shows opened (ledger.retireAll gone) ∧ ∀ given ∈ gone, task.Retires given) :
    ∃ gone, TaskDone app opened number session (session.perform (Step.onTask number work)).2 ledger
      gone := by
  cases htask : session.tasks[number]? with
  | none =>
    rw [perform_onTask_none _ htask]
    exact ⟨[], h, .refl _, fun _ hmem => (nomatch hmem), rfl,
      fun _ task hother => ⟨task, hother, rfl, rfl⟩⟩
  | some task =>
    rw [perform_onTask _ htask]
    have hof := h.tasks task (List.mem_of_getElem? htask)
    obtain ⟨hsame, hfollows, hidle, gone, hshown, hgone⟩ := hwork task _ _ hof rfl
    have hmoves : Ledger.Moves app ledger (ledger.retireAll gone) :=
      Ledger.moves_retireAll fun given hgiven => hof.isNameOf_of_retires (hgone given hgiven)
    -- What is gone is named by the task, and the task is of the application, so giving it up makes
    -- moves.
    refine ⟨gone, h.moveOn hfollows hidle hshown hmoves (h.isOf_set htask hsame), hfollows,
      fun given hgiven => ⟨task, htask, hgone given hgiven⟩, rfl, fun other ended hother => ?_⟩
    -- the task at this number went on, and all others are as they were
    rw [List.getElem?_set] at hother
    split at hother
    · next heq =>
      subst heq
      split at hother
      · obtain rfl := Option.some.inj hother
        exact ⟨task, htask, hsame⟩
      · cases hother
    · exact ⟨ended, hother, rfl, rfl⟩

/-- **What is done to a task takes away what the task was to retire, and nothing else.** This covers
starting it, letting its wait come to an end, and cancelling it. -/
theorem InOrder.afterTaskDeed (h : session.InOrder app opened ledger) {deed : Deed} {number : Nat}
    (hdeed : deed.task? = some number) :
    ∃ gone, TaskDone app opened number session (session.afterDeed deed) ledger gone := by
  -- Three of the deeds set a task going, and each has its own account of what the task then does.
  cases deed with
  | define | release | scale | arm => cases hdeed
  | start number =>
    obtain rfl := Option.some.inj hdeed
    refine h.onTask number fun task ended world hof hrun => ?_
    obtain ⟨names, hnames, -⟩ := hof.exists_names
    obtain ⟨hfollows, hidle, hsame, -, hcase⟩ :=
      Task.start_cases hof hnames h.shows h.idle h.spares hrun
    refine ⟨hsame, hfollows, hidle, ?_⟩
    -- the task waits and nothing is gone, or it ran already
    rcases hcase with ⟨-, -, hshown⟩ | ⟨moved, hshown, hran⟩
    · exact ⟨[], hshown, fun _ hmem => nomatch hmem⟩
    · obtain ⟨gone, rfl, hgone⟩ := hran.exists_gone hnames
      exact ⟨gone, hshown, hgone⟩
  | elapse number =>
    obtain rfl := Option.some.inj hdeed
    refine h.onTask number fun task ended world hof hrun => ?_
    obtain ⟨names, hnames, -⟩ := hof.exists_names
    rcases Task.elapse_cases hof hnames h.shows h.idle h.spares hrun with
      ⟨-, rfl, rfl⟩ | ⟨-, hfollows, hidle, hsame, -, moved, hshown, hran⟩
    · exact ⟨⟨rfl, rfl⟩, .refl _, h.idle, [], h.shows, fun _ hmem => nomatch hmem⟩
    · obtain ⟨gone, rfl, hgone⟩ := hran.exists_gone hnames
      exact ⟨hsame, hfollows, hidle, gone, hshown, hgone⟩
  | cancel number =>
    obtain rfl := Option.some.inj hdeed
    refine h.onTask number fun task ended world hof hrun => ?_
    obtain ⟨names, hnames, -⟩ := hof.exists_names
    obtain ⟨hsame, hcase⟩ := Task.cancel_cases hof hnames h.shows h.idle h.spares hrun
    refine ⟨hsame, ?_⟩
    -- a task that was not waiting only takes notice
    rcases hcase with rfl | ⟨hfollows, hidle, moved, hshown, hran⟩
    · exact ⟨.refl _, h.idle, [], h.shows, fun _ hmem => nomatch hmem⟩
    · obtain ⟨gone, rfl, hgone⟩ := hran.exists_gone hnames
      exact ⟨hfollows, hidle, gone, hshown, hgone⟩

/-- **Laying faults in wait changes nothing else**, as long as they leave the job store and the
event log alone. -/
theorem InOrder.arm (h : session.InOrder app opened ledger) {faults : List Fault}
    (hlegal : (Deed.arm faults).IsLegal app) :
    (session.afterDeed (.arm faults)).InOrder app opened ledger := by
  obtain ⟨hopen, hshows, hidle, -, hsound, hagrees, hformations, htasks⟩ := h
  have hspares (point : Point) (hpoint : point ∈ [Point.list, .add, .remove, .log]) :
      ({ session.world with faults } : World).Spares point := by
    rintro fault hmem rfl
    exact hlegal fault hmem hpoint
  refine ⟨hopen, ⟨hshows.memory, hshows.time, hshows.jobs, hshows.processes, hshows.events⟩,
    hidle, ⟨hspares _ ?_, hspares _ ?_, hspares _ ?_, hspares _ ?_⟩, hsound, hagrees, hformations,
    htasks⟩ <;> decide

/-! ### Order is kept -/

/-- **A legal deed leaves a session in order**, and makes moves. This is the step of every induction
over histories. -/
theorem InOrder.afterDeed (h : session.InOrder app opened ledger) {deed : Deed}
    (hlegal : deed.IsLegal app) :
    ∃ moved, (session.afterDeed deed).InOrder app opened moved ∧ Ledger.Moves app ledger moved := by
  -- for three of the deeds it is enough that they are about a task
  have htask {number : Nat} (hdeed : deed.task? = some number) :
      ∃ moved, (session.afterDeed deed).InOrder app opened moved ∧
        Ledger.Moves app ledger moved := by
    obtain ⟨gone, hdone⟩ := h.afterTaskDeed hdeed
    exact ⟨_, hdone.inOrder, hdone.moves h⟩
  cases deed with
  | define name formation => exact ⟨ledger, h.keepFormation name hlegal, .refl⟩
  | release blueprint name =>
    cases hrun : session.perform (Step.rollOut blueprint name) with
    | mk result after =>
      obtain ⟨moved, horder, hmoves, -⟩ := perform_rollOut_cases h hlegal hrun
      rw [afterDeed_release, hrun]
      exact ⟨moved, horder, hmoves⟩
  | scale blueprint quantities name =>
    obtain ⟨moved, horder, hmoves, -⟩ := perform_scale_cases h hlegal.1 hlegal.2 rfl
    exact ⟨moved, horder, hmoves⟩
  | arm faults => exact ⟨ledger, h.arm hlegal, .refl⟩
  | start | elapse | cancel => exact htask rfl

/-- **A legal history leaves a session in order**, and makes moves. Whatever moves keep, such as
agreement, therefore holds after the history if it held before. -/
theorem InOrder.follow (h : session.InOrder app opened ledger) {history : List Deed}
    (hlegal : ∀ deed ∈ history, deed.IsLegal app) :
    ∃ moved, (session.follow history).InOrder app opened moved ∧ Ledger.Moves app ledger moved := by
  -- On the history, with the session and its ledger free: order after the first deed is what the
  -- deeds behind it start from.
  induction history generalizing session ledger with
  | nil =>
    rw [follow_nil]
    exact ⟨ledger, h, .refl⟩
  | cons deed rest ih =>
    rw [follow_cons]
    obtain ⟨middle, horder, hmoves⟩ := h.afterDeed (hlegal deed List.mem_cons_self)
    obtain ⟨moved, horder', hmoves'⟩ := ih horder
      (fun other hmem => hlegal other (List.mem_cons_of_mem _ hmem))
    exact ⟨moved, horder', hmoves.trans hmoves'⟩

/-! ### A fresh session -/

/-- The stores of a fresh session are one file, and cleanups wait for a minute. -/
def freshlyOpened : Opened :=
  ⟨.text "state.db", .text "state.db", ⟨.int 60, .int 3, .int 0, .text "state.db"⟩⟩

/-- A session with a scheduler in memory that runs nothing, and with stores that were opened for the
first time. The examples of what happens to releases start from it. -/
def fresh : Session where
  world :=
    { scheduler := .memory ⟨"memory-0", []⟩
      daemon := ⟨[], [], .none⟩
      files := [(["tmp"], .directory), (["state.db", "tmp"], .file (.database
        ⟨some .empty, some .empty, some .empty, true⟩))]
      site := ⟨["tmp"], .text "state.db", 1700000000⟩
      faults := []
      history := []
      cancelled := none
      waitLimit := .ofNanoseconds }
  settings := .ofVariables []
  opened := some freshlyOpened
  formations := []
  tasks := []

theorem fresh_keeps : Disk.Keeps fresh.world.site (.text "state.db") ["state.db", "tmp"]
    ⟨some .empty, some .empty, some .empty, true⟩ fresh.world.files :=
  ⟨rfl, rfl, ⟨rfl, rfl⟩, rfl, rfl⟩

/-- **A fresh session is in order** for every application, with a ledger that is empty. Nothing is
tracked or scheduled in it, and no task waits. -/
theorem fresh_inOrder (app : String) : fresh.InOrder app freshlyOpened ⟨[], [], []⟩ := by
  refine ⟨rfl, ⟨⟨_, rfl⟩, ⟨_, rfl⟩, ⟨_, _, fresh_keeps, rfl⟩, ⟨_, _, fresh_keeps, rfl⟩,
      ⟨_, _, fresh_keeps⟩⟩, rfl,
    World.sparesStores_of_no_faults rfl, ⟨(fun _ hmem => nomatch hmem), List.nodup_nil⟩,
    (fun _ _ => ?_), (fun _ hmem => nomatch hmem), fun _ hmem => nomatch hmem⟩
  exact iff_of_false List.not_mem_nil List.not_mem_nil

end Session

/-- Releases of one application that differ in their version only. -/
def Blueprint.web (version : Int) : Blueprint :=
  ⟨⟨.text "web", .int version⟩, ⟨.text "repo", .text "v1"⟩, []⟩

/-- A formation of one process type. -/
def Formation.web (count : Nat) : Formation :=
  [(.text "web", ⟨.text "web", .text "./run", .whole count, .text ""⟩)]

/-- A fault that rejects one request about a name. -/
def Fault.rejecting (point : Point) (name : String) : Fault :=
  ⟨point, some (.text name), 1, some (.reported .rejection "no capacity"), false⟩

/-- A rejection by the scheduler leaves the job store and the event log alone. -/
theorem Deed.isLegal_rejecting {point : Point} (h : point ∉ [Point.list, .add, .remove, .log])
    (name app : String) : (Deed.arm [.rejecting point name]).IsLegal app := by
  intro fault hmem hpoint
  rw [List.mem_singleton.mp hmem] at hpoint
  exact absurd hpoint h

/-- Such releases are typed, as long as their version is an integer of 64 bits. -/
theorem Blueprint.isTyped_web {version : Int} (h : CellNumber.fits version = true) :
    (Blueprint.web version).IsTyped "web" := ⟨rfl, ⟨version, rfl, h⟩, ⟨_, rfl⟩, ⟨_, rfl⟩⟩

/-- Such formations are typed, as long as their quantity is an integer of 64 bits. -/
theorem Formation.isTyped_web {count : Nat} (h : CellNumber.fits count = true) :
    (Formation.web count).IsTyped := by
  intro entry hmem
  rw [List.mem_singleton.mp hmem]
  exact ⟨⟨_, rfl⟩, ⟨_, rfl⟩, ⟨_, rfl⟩, ⟨count, rfl, h⟩, ⟨_, rfl⟩⟩

theorem Session.perform_eq_of_toOption {α : Type} {session : Session} {step : Step α} {value : α}
    (h : (session.perform step).1.toOption = some value) :
    session.perform step = (.ok value, (session.perform step).2) :=
  Prod.ext (eq_ok_of_toOption h) rfl

theorem World.run_eq_of_toOption {α : Type} {stores : Stores} {world : World}
    {plan : Plan Collaborators (Except Failure α)} {value : α}
    (h : (World.run stores plan world).1.toOption = some value) :
    World.run stores plan world = (.ok value, (World.run stores plan world).2) :=
  Prod.ext (eq_ok_of_toOption h) rfl

end Rollout
