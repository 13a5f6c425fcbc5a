import Rollout.Proofs.Doings
import Rollout.Proofs.IgnoringLog

/-!
# Failures of the log make no difference

Two runs of a session are compared that differ in one thing only: in which events the log fails to
take. The sessions are *log twins* at the start (`Session.LogTwins`): their worlds are, and all else
is the same in them. They are sent on the same errands (`Errand`), but the faults that are laid in
wait may vary in the log (`Errand.Varies`).

* `Task.alike_start`, `Task.alike_elapse`, `Task.alike_cancel`: what is done to a task comes to the
  same, as every part of it ignores the log.
* `Session.Alike`: steps of a session that come to the same. Steps are made of such steps, and so
  are all errands (`Session.alike_step`).
* `Session.alike_doErrands`: all errands are answered alike, and the sessions are twins in the end.

What an errand has to say must fit into the log (`Errand.IsLoggable`). A version beyond 64 bits does
not, and then it does make a difference whether the log fails in another way before
(`Session.not_always_alike`).
-/

namespace Rollout

variable {α β : Type} {opened : Opened}

/-! ### Tasks -/

namespace Task

variable {task after : Task} {plan : Plan Collaborators α}

/-- The task works on the stores that are open, and what it has to say fits into the log. Only then
can it matter to it neither which of the two worlds it is in nor what the log does. -/
structure Suits (opened : Opened) (task : Task) : Prop where
  serve : task.stores.Serve opened
  release : task.cleanup.release.IsLoggable

theorem Suits.of_sameAs (h : task.Suits opened) (hsame : after.SameAs task) :
    after.Suits opened :=
  ⟨hsame.stores_eq ▸ h.serve, hsame.cleanup ▸ h.release⟩

/-- Part of a task comes to the same in twins. -/
theorem twins_inWorld {world twin : World} (h : task.Suits opened) (hplan : plan.IgnoresLog)
    (htwins : world.LogTwins opened twin) :
    let here := task.inWorld plan world
    let there := task.inWorld plan twin
    there.1 = here.1 ∧ there.2.1 = here.2.1 ∧ here.2.1.SameAs task ∧
      here.2.2.LogTwins opened there.2.2 := by
  -- The flag of the task is handed to the world in which it works, the same one to both.
  have hknown : ({ world with cancelled := some task.cancelled } : World).LogTwins opened
      { twin with cancelled := some task.cancelled } :=
    { htwins with cancelled := rfl }
  obtain ⟨hanswer, hafter⟩ := World.alike_run h.serve hplan _ _ hknown
  refine ⟨hanswer, ?_, ⟨rfl, rfl⟩, { hafter with cancelled := rfl }⟩
  dsimp only [inWorld]
  rw [World.isCancelled, World.isCancelled, hafter.cancelled]

theorem alike_proceed (h : task.Suits opened) (grace : Except Failure Bool) :
    World.Alike opened (task.proceed grace) := by
  intro world twin htwins
  obtain ⟨houtcome, htask, -, hafter⟩ :=
    twins_inWorld h (Cleanup.ignoresLog_afterGrace h.release task.progress grace) htwins
  refine ⟨?_, hafter⟩
  dsimp only [proceed]
  rw [houtcome, htask]

/-- **Starting a task** comes to the same in twins. -/
theorem alike_start (h : task.Suits opened) : World.Alike opened task.start := by
  intro world twin htwins
  rw [start, start]
  split
  · exact ⟨rfl, htwins⟩
  have hsuits : ({ task with crash := none } : Task).Suits opened := h.of_sameAs ⟨rfl, rfl⟩
  -- The wait for the grace period is the first thing that a task does, and no part of it concerns
  -- the log.
  obtain ⟨hgrace, htask, hsame, hafter⟩ :=
    twins_inWorld hsuits (Call.ignoresLog_wait task.cleanup.grace) htwins
  dsimp only
  -- What was begun is given a name in either world; the two only differ in the world that is left.
  generalize Task.inWorld { task with crash := none } (Call.ask (.wait task.cleanup.grace)) world =
    here at *
  generalize Task.inWorld { task with crash := none } (Call.ask (.wait task.cleanup.grace)) twin =
    there at *
  obtain ⟨grace, begun, between⟩ := here
  obtain ⟨grace', begun', between'⟩ := there
  dsimp only at hgrace htask hsame hafter
  subst hgrace htask
  -- what was begun in the same way waits in both worlds, or goes on in both
  have hgone (grace : Except Failure Bool) := alike_proceed (hsuits.of_sameAs hsame) grace
  dsimp only
  split
  · split
    · exact ⟨rfl, hafter⟩
    · exact hgone _ _ _ hafter
  · exact hgone _ _ _ hafter

theorem alike_elapse (h : task.Suits opened) : World.Alike opened task.elapse := by
  intro world twin htwins
  rw [elapse, elapse]
  split
  · exact alike_proceed h _ _ _ htwins
  · exact ⟨rfl, htwins⟩

theorem alike_cancel (h : task.Suits opened) : World.Alike opened task.cancel := by
  intro world twin htwins
  have hsuits : ({ task with cancelled := true } : Task).Suits opened := h.of_sameAs ⟨rfl, rfl⟩
  rw [cancel, cancel]
  dsimp only
  split
  · exact alike_proceed hsuits _ _ _ htwins
  · exact ⟨rfl, htwins⟩

theorem sameAs_start (world : World) : (task.start world).1.SameAs task := by
  rw [start]
  -- Started before, waiting, or done at once: the cleanup and its stores are handed on in all
  -- cases.
  split
  · exact ⟨rfl, rfl⟩
  · dsimp only
    split
    · split <;> exact ⟨rfl, rfl⟩
    · exact ⟨rfl, rfl⟩

theorem sameAs_elapse (world : World) : (task.elapse world).1.SameAs task := by
  rw [elapse]
  split <;> exact ⟨rfl, rfl⟩

theorem sameAs_cancel (world : World) : (task.cancel world).1.SameAs task := by
  rw [cancel]
  dsimp only
  split <;> exact ⟨rfl, rfl⟩

end Task

/-- The cleanup of a rollout is about the release that was rolled out, and logs where the policy
says. -/
theorem World.cleanup_of_rollOut {stores : Stores} {policy : Policy} {blueprint : Blueprint}
    {formation : Formation} {world after : World} {cleanup : Cleanup}
    (h : World.run stores (rollOut policy blueprint formation).attempt world =
      (.ok cleanup, after)) :
    cleanup.release = blueprint.release ∧ cleanup.events = policy.events := by
  -- the cleanup is what the last of six steps ends with
  have hlast {α β : Type} {work : Action α} {next : α → Action β} {world : World} {result : β}
      (h : World.run stores (work >>= next).attempt world = (.ok result, after)) :
      ∃ value between, World.run stores (next value).attempt between = (.ok result, after) := by
    rcases World.run_bind_cases h with ⟨value, between, -, hnext⟩ | ⟨_, -, hresult⟩
    · exact ⟨value, between, hnext⟩
    · cases hresult
  obtain ⟨stale, _, h⟩ := hlast h
  obtain ⟨jobs, _, h⟩ := hlast h
  obtain ⟨_, _, h⟩ := hlast h
  obtain ⟨version, _, h⟩ := hlast h
  obtain ⟨_, _, h⟩ := hlast h
  exact (Session.cleanup_of_make? (congrArg (·.1) h)).2

/-! ### Sessions -/

namespace Session

variable {step : Step α} {next : α → Step β} {blueprint : Blueprint}

/-- The two sessions are in twin worlds, and all else is the same in them. Their tasks must suit the
stores: a task of another file could see a world in which the two are no twins. -/
structure LogTwins (opened : Opened) (session twin : Session) : Prop where
  world : session.world.LogTwins opened twin.world
  settings : twin.settings = session.settings
  isOpen : session.opened = some opened
  stores : twin.opened = session.opened
  formations : twin.formations = session.formations
  tasks : twin.tasks = session.tasks
  suit : ∀ task ∈ session.tasks, task.Suits opened

/-- What is done to a session comes to the same in twins and leaves twins. The relation goes through
sequences of steps, so it is shown for the steps that all others are made of. -/
def Alike (opened : Opened) (step : Step α) : Prop :=
  ∀ session twin : Session, session.LogTwins opened twin →
    (twin.perform step).1 = (session.perform step).1 ∧
      (session.perform step).2.LogTwins opened (twin.perform step).2

namespace Alike

theorem of_pure (value : α) : Alike opened (pure value : Step α) := fun _ _ htwins => ⟨rfl, htwins⟩

theorem of_ofExcept (known : Except Failure α) : Alike opened (Step.ofExcept known) :=
  fun _ _ htwins => ⟨rfl, htwins⟩

/-- **One step after another.** The second step needs to come to the same only for values that the
first one can have. -/
theorem bind (h : Alike opened step)
    (hnext : ∀ value, (∃ session : Session, (session.perform step).1 = .ok value) →
      Alike opened (next value)) :
    Alike opened (step >>= next) := by
  intro session twin htwins
  obtain ⟨hanswer, hafter⟩ := h session twin htwins
  rw [perform_bind, perform_bind]
  cases hhere : session.perform step with
  | mk result after =>
    cases hthere : twin.perform step with
    | mk result' after' =>
      rw [hhere, hthere] at hanswer hafter
      obtain rfl : result' = result := hanswer
      -- Both sessions have the same answer, and the next step is chosen by it.
      cases result' with
      | error failure => exact ⟨rfl, hafter⟩
      | ok value => exact hnext value ⟨session, congrArg (·.1) hhere⟩ _ _ hafter

/-- A step that looks up which stores are open, and nothing else. -/
theorem get_bind {next : Session → Step α}
    (hsame : ∀ session other : Session, session.opened = other.opened → next session = next other)
    (h : ∀ session : Session, session.opened = some opened → Alike opened (next session)) :
    Alike opened (get >>= next) := by
  intro session twin htwins
  rw [perform_bind, perform_bind, perform_get, perform_get]
  dsimp only
  -- Twins have the same stores open, so the same step follows in both.
  rw [hsame twin session htwins.stores]
  exact h session htwins.isOpen session twin htwins

theorem opened_bind {next : Opened → Step α} (h : Alike opened (next opened)) :
    Alike opened (Step.opened >>= next) := by
  intro session twin htwins
  rw [perform_bind, perform_bind, perform_opened htwins.isOpen,
    perform_opened (htwins.stores.trans htwins.isOpen)]
  exact h session twin htwins

theorem onWorld {work : World → Except Failure α × World} (h : World.Alike opened work) :
    Alike opened (Step.onWorld work) := by
  intro session twin htwins
  obtain ⟨hanswer, hafter⟩ := h _ _ htwins.world
  rw [perform_onWorld, perform_onWorld]
  exact ⟨hanswer, { htwins with world := hafter }⟩

theorem act {work : Action α} (h : Action.IgnoresLog work) :
    Alike opened (Step.act opened.stores work) :=
  onWorld (World.alike_run opened.serve_stores h)

theorem formation (name : Value) : Alike opened (Step.formation name) := by
  intro session twin htwins
  -- Formations are kept under names, and twins keep the same ones.
  have hsame : twin.formation? name = session.formation? name := by
    rw [formation?, formation?, htwins.formations]
  rw [perform_formation, perform_formation, hsame]
  cases session.formation? name <;> exact ⟨rfl, htwins⟩

theorem keepFormation (name : Value) (formation : Formation) :
    Alike opened (Step.keepFormation name formation) := fun _ _ htwins =>
  ⟨rfl, { htwins with formations := congrArg (Value.insert name formation) htwins.formations }⟩

theorem addTask {cleanup : Cleanup}
    (h : (Task.ofCleanup (some opened.jobs) cleanup).Suits opened) :
    Alike opened (Step.addTask (some opened.jobs) cleanup) := by
  intro session twin htwins
  rw [perform_addTask, perform_addTask, htwins.tasks]
  refine ⟨rfl, { htwins with tasks := rfl, suit := fun task hmem => ?_ }⟩
  -- The tasks from before suit as they did, and the new one by assumption.
  rcases List.mem_append.mp hmem with hold | hnew
  · exact htwins.suit task hold
  · rw [List.mem_singleton.mp hnew]
    exact h

/-- **What is done to a task** comes to the same. The task of the twin is the same one, since tasks
hold nothing of the log. -/
theorem onTask (number : Nat) {work : Task → World → Task × World}
    (hwork : ∀ task : Task, task.Suits opened → World.Alike opened (work task))
    (hsame : ∀ task world, (work task world).1.SameAs task) :
    Alike opened (Step.onTask number work) := by
  intro session twin htwins
  -- A number without a task is refused in both sessions.
  cases htask : session.tasks[number]? with
  | none =>
    rw [perform_onTask_none _ htask, perform_onTask_none _ (htwins.tasks ▸ htask)]
    exact ⟨rfl, htwins⟩
  | some task =>
    -- the task is the same in both sessions
    have hsuits := htwins.suit task (List.mem_of_getElem? htask)
    obtain ⟨hanswer, hafter⟩ := hwork task hsuits _ _ htwins.world
    rw [perform_onTask _ htask, perform_onTask _ (htwins.tasks ▸ htask), htwins.tasks, hanswer]
    refine ⟨rfl, { htwins with world := hafter, tasks := rfl, suit := fun other hmem => ?_ }⟩
    rcases List.mem_or_eq_of_mem_set hmem with hold | rfl
    · exact htwins.suit other hold
    · exact hsuits.of_sameAs (hsame task session.world)

theorem start (number : Nat) : Alike opened (Step.onTask number Task.start) :=
  onTask number (fun _ => Task.alike_start) fun _ => Task.sameAs_start

/-! ### Operations -/

/-- **A release** comes to the same in twins, and so does the start of its task. Its version must
fit into the log, where a wider one fails in a way that is not passed over. -/
theorem rollOut (h : blueprint.release.IsLoggable) (name : Value) :
    Alike opened (Step.rollOut blueprint name) := by
  refine opened_bind <| (formation name).bind fun found _ =>
    (act (ignoresLog_rollOut opened.policy h found)).bind fun cleanup hmade =>
      (addTask ?_).bind fun number _ => (start number).bind fun _ _ => of_pure number
  -- The new task suits, since the cleanup was made for this release and logs where the policy says.
  obtain ⟨session, hmade⟩ := hmade
  obtain ⟨hrelease, hevents⟩ := World.cleanup_of_rollOut (Prod.ext hmade rfl)
  exact ⟨⟨rfl, fun _ hfile => (nomatch hfile), hevents⟩, hrelease ▸ h⟩

theorem scale (h : blueprint.release.IsLoggable) (quantities : List (Value × Value))
    (name : Value) : Alike opened (Step.scale blueprint quantities name) := by
  -- The formation is kept even if scaling failed, so the ending is handed on last.
  refine (formation name).bind fun found _ => opened_bind <|
    (onWorld fun world twin htwins => ?_).bind fun result _ =>
      (keepFormation name result.formation).bind fun _ _ => of_ofExcept result.ending
  obtain ⟨hanswer, hafter⟩ := World.alike_run opened.serve_stores
    (Scale.ignoresLog_scale h quantities found) _ _ htwins
  exact ⟨congrArg Except.ok hanswer, hafter⟩

theorem survey (app : Value) : Alike opened (Step.survey app) :=
  opened_bind (act (Survey.ignoresLog_survey app))

/-- A cleanup of jobs that are known. -/
theorem cleanUp_given {release : Release} (h : release.IsLoggable) (jobs : List Job)
    (grace retries delay : Value) (starts : Bool) :
    Alike opened
      (Step.cleanUp (.given jobs) grace retries delay release opened.policy.events starts) := by
  -- Making the cleanup may fail, on the same arguments in both sessions.
  refine (of_pure jobs).bind fun jobs _ => (of_ofExcept _).bind fun cleanup hmade =>
    get_bind (fun session other hsame => ?_) fun session hopen => ?_
  · rw [hsame]
  rw [hopen]
  refine (addTask ?_).bind fun number _ => ?_
  · obtain ⟨_, hmade⟩ := hmade
    obtain ⟨-, hrelease, hevents⟩ := cleanup_of_make? hmade
    exact ⟨⟨rfl, fun _ hfile => (nomatch hfile), hevents⟩, hrelease ▸ h⟩
  · cases starts with
    | true => exact (start number).bind fun _ _ => of_pure number
    | false => exact of_pure number

/-- **A cleanup of its own** comes to the same in twins if it logs where all others do. -/
theorem cleanUp {release : Release} (h : release.IsLoggable) (stale : Step.Stale)
    (grace retries delay : Value) (starts : Bool) :
    Alike opened
      (Step.cleanUp stale grace retries delay release opened.policy.events starts) := by
  cases stale with
  | ofApp app =>
    exact (opened_bind (act (Call.ignoresLog_ask (.list app) nofun))).bind fun jobs _ =>
      cleanUp_given h jobs grace retries delay starts
  | given jobs => exact cleanUp_given h jobs grace retries delay starts

end Alike

end Session

/-! ### Errands -/

/-- What a session is asked to do in the life of applications: a deed, a survey of an application, a
cleanup that belongs to no rollout, or to go on at another time. -/
inductive Errand where
  | deed (deed : Deed)
  | survey (app : Value)
  | cleanUp (stale : Step.Stale) (grace retries delay : Value) (release : Release) (events : Value)
      (starts : Bool)
  | goOnAt (now : Int)

/-- What is answered to an errand that does not fail. Tasks are answered by their number, under
which they are spoken of later. -/
inductive Reply where
  | done
  | task (number : Nat)
  | states (states : List JobState)

namespace Errand

/-- The errand as a step of a session. -/
def step : Errand → Step Reply
  | deed (.release blueprint name) => return .task (← Step.rollOut blueprint name)
  | deed other => do
    other.step
    return .done
  | survey app => return .states (← Step.survey app)
  | cleanUp stale grace retries delay release events starts =>
    return .task (← Step.cleanUp stale grace retries delay release events starts)
  | goOnAt now => do
    Step.changeWorld fun world => { world with site := { world.site with now } }
    return .done

/-- What an errand has to say fits into the log, a cleanup logs where all others do, and the
calendar has the time at which a session is to go on. -/
def IsLoggable (opened : Opened) : Errand → Prop
  | deed (.release blueprint _) | deed (.scale blueprint _ _) => blueprint.release.IsLoggable
  | cleanUp _ _ _ _ release events _ => release.IsLoggable ∧ events = opened.policy.events
  | goOnAt now => ∃ text, Calendar.timestamp now = .ok text
  | deed _ | survey _ => True

/-- The two errands are the same, or lay faults in wait that vary in the log. This is how one run is
made to meet failures of the log that the other one does not. -/
inductive Varies (opened : Opened) : Errand → Errand → Prop where
  | same {errand : Errand} (h : errand.IsLoggable opened) : Varies opened errand errand
  | arm {faults others : List Fault} (h : Fault.VaryInLog faults others) :
      Varies opened (.deed (.arm faults)) (.deed (.arm others))

end Errand

namespace Session

variable {session twin : Session} {errand other : Errand}

/-- What is answered to errands that are done one after the other, and the session afterwards. -/
def doErrands : List Errand → Session → List (Except Failure Reply) × Session
  | [], session => ([], session)
  | errand :: rest, session =>
    let first := session.perform errand.step
    let later := doErrands rest first.2
    (first.1 :: later.1, later.2)

theorem LogTwins.arm (h : session.LogTwins opened twin) {faults others : List Fault}
    (hvary : Fault.VaryInLog faults others) :
    (session.perform (Errand.deed (.arm faults)).step).2.LogTwins opened
      (twin.perform (Errand.deed (.arm others)).step).2 :=
  { h with world := { h.world with faults := hvary } }

/-- Twins that go on at another time are twins. -/
theorem alike_goOnAt {now : Int} {text : String} (hnow : Calendar.timestamp now = .ok text) :
    Alike opened (Errand.goOnAt now).step := by
  intro session twin htwins
  exact ⟨rfl, { htwins with
    world := { htwins.world with
      site := congrArg (fun site : Surroundings => { site with now }) htwins.world.site
      time := ⟨text, hnow⟩
      files := htwins.world.files.at_time now } }⟩

/-- **An errand that is loggable** comes to the same in twins. -/
theorem alike_step (h : errand.IsLoggable opened) : Alike opened errand.step := by
  -- nothing is made of the answer but a reply
  have hreplied {α : Type} {step : Step α} (h : Alike opened step) (reply : α → Reply) :
      Alike opened (step >>= fun answer => pure (reply answer)) :=
    h.bind fun answer _ => .of_pure (reply answer)
  -- One case for each kind of errand; for most it is a step that was dealt with above.
  cases errand with
  | survey app => exact hreplied (.survey app) _
  | cleanUp stale grace retries delay release events starts =>
    obtain ⟨hrelease, rfl⟩ := h
    exact hreplied (.cleanUp hrelease stale grace retries delay starts) _
  | goOnAt now =>
    obtain ⟨text, hnow⟩ := h
    exact alike_goOnAt hnow
  | deed deed =>
    cases deed with
    | define name formation => exact hreplied (.keepFormation name formation) _
    | release blueprint name => exact hreplied (.rollOut h name) _
    | scale blueprint quantities name => exact hreplied (.scale h quantities name) _
    | start number => exact hreplied (.start number) _
    | elapse number =>
      exact hreplied (.onTask number (fun _ => Task.alike_elapse) fun _ => Task.sameAs_elapse) _
    | cancel number =>
      exact hreplied (.onTask number (fun _ => Task.alike_cancel) fun _ => Task.sameAs_cancel) _
    | arm faults => exact fun _ _ htwins => ⟨rfl, htwins.arm (.refl faults)⟩

/-- **Errands that vary in the log** come to the same in twins. This is the step of
`alike_doErrands`; only faults that are laid in wait may differ, and laying them is answered
alike. -/
theorem LogTwins.perform (h : session.LogTwins opened twin) (hvaries : errand.Varies opened other) :
    (twin.perform other.step).1 = (session.perform errand.step).1 ∧
      (session.perform errand.step).2.LogTwins opened (twin.perform other.step).2 := by
  cases hvaries with
  | same hloggable => exact alike_step hloggable session twin h
  | arm hvary => exact ⟨rfl, h.arm hvary⟩

/-- **Failures of the log make no difference.** Twins that are sent on the same errands, but for
faults that vary in the log, answer the same and are twins in the end: the same requests were made,
and schedulers, tracked jobs, wanted quantities, formations and tasks are the same. -/
theorem alike_doErrands (h : session.LogTwins opened twin) {errands others : List Errand}
    (hvaries : List.Forall₂ (Errand.Varies opened) errands others) :
    (twin.doErrands others).1 = (session.doErrands errands).1 ∧
      (session.doErrands errands).2.LogTwins opened (twin.doErrands others).2 := by
  -- Errand by errand: the answers agree so far, and the sessions that go on are twins.
  induction hvaries generalizing session twin with
  | nil => exact ⟨rfl, h⟩
  | cons hfirst _ ih =>
    obtain ⟨hanswer, hafter⟩ := h.perform hfirst
    obtain ⟨hanswers, hend⟩ := ih hafter
    refine ⟨?_, hend⟩
    rw [doErrands, doErrands]
    dsimp only
    rw [hanswer, hanswers]

theorem twins_self {ledger : Ledger} (hopened : session.opened = some opened)
    (hshows : session.world.Shows opened ledger)
    (hsuit : ∀ task ∈ session.tasks, task.Suits opened) : session.LogTwins opened session := by
  obtain ⟨-, htime, ⟨_, _, hjobs, -⟩, ⟨_, _, hprocesses, -⟩, ⟨_, _, hevents⟩⟩ := hshows
  exact ⟨⟨rfl, rfl, rfl, rfl, rfl, rfl, .refl _, htime, .refl hjobs, .refl hprocesses,
    .refl hevents⟩, rfl, hopened, rfl, rfl, rfl, hsuit⟩

theorem fresh_logTwins : fresh.LogTwins freshlyOpened fresh :=
  twins_self fresh_stands.isOpen fresh_stands.shows fun _ hmem => nomatch hmem

/-- A release is rolled out, scaled up and surveyed, the next one is rolled out, and its cleanup
comes to its end, with faults that lie in wait from the beginning. -/
def workingOnWeb (version : Int) (faults : List Fault) : List Errand :=
  [.deed (.define (.text "formation") (.web 1)), .deed (.arm faults),
    .deed (.release (.web version) (.text "formation")),
    .deed (.scale (.web version) [(.text "web", .int 2)] (.text "formation")),
    .survey (.text "web"), .deed (.release (.web (version + 1)) (.text "formation")),
    .deed (.elapse 1)]

/-- A disk that is full when an event is to be logged, as often as that happens. -/
def fullDisk : Fault := ⟨.log, none, -1, some (.reported .system "disk full"), false⟩

theorem varyInLog_fullDisk : Fault.VaryInLog [] [fullDisk] := by
  refine Fault.varyInLog_of_same rfl (fun _ hmem => nomatch hmem) fun fault hmem _ => ?_
  rw [List.mem_singleton.mp hmem]
  exact ⟨fun failure hfailure => Option.some.inj hfailure ▸ rfl, rfl⟩

/-- How many events were logged. -/
def logged (session : Session) : Option Nat :=
  (session.perform (Step.events freshlyOpened.policy.events (.int 10))).1.toOption.map (·.length)

/-- With a full disk all is as without, but for the four events that are lost. -/
theorem alike_on_full_disk :
    let here := fresh.doErrands (workingOnWeb 1 [])
    let there := fresh.doErrands (workingOnWeb 1 [fullDisk])
    there.1 = here.1 ∧ here.2.LogTwins freshlyOpened there.2 ∧
      here.2.logged = some 4 ∧ there.2.logged = some 0 := by
  -- What is to be checked of each errand is that its version fits into the log.
  have hloggable {version : Int} (hfits : CellNumber.fits version = true) :
      (Blueprint.web version).release.IsLoggable :=
    ⟨fun _ heq => (nomatch heq), fun n heq => Value.int.inj heq ▸ hfits⟩
  have hone : (Blueprint.web 1).release.IsLoggable := hloggable (by decide +kernel)
  obtain ⟨hanswers, hend⟩ := alike_doErrands fresh_logTwins (show
    List.Forall₂ (Errand.Varies freshlyOpened) (workingOnWeb 1 []) (workingOnWeb 1 [fullDisk]) from
    .cons (.same trivial) <| .cons (.arm varyInLog_fullDisk) <| .cons (.same hone) <|
    .cons (.same hone) <| .cons (.same trivial) <| .cons (.same (hloggable (by decide +kernel))) <|
    .cons (.same trivial) .nil)
  exact ⟨hanswers, hend, by decide +kernel, by decide +kernel⟩

/-- A release without jobs is rolled out, with a version that is too large for the log. -/
def releasingNothing (faults : List Fault) : List Errand :=
  [.deed (.define (.text "formation") (.web 0)), .deed (.arm faults),
    .deed (.release (.web 9223372036854775808) (.text "formation"))]

/-- **A version beyond 64 bits** is a failure of the log that it does not let pass, unless the log
fails before it comes to that. -/
theorem not_always_alike :
    fresh.LogTwins freshlyOpened fresh ∧ Fault.VaryInLog [] [fullDisk] ∧
      (fresh.doErrands (releasingNothing [fullDisk])).1 ≠
        (fresh.doErrands (releasingNothing [])).1 := by
  refine ⟨fresh_logTwins, varyInLog_fullDisk, fun hsame => ?_⟩
  -- Without the fault the log raises an overflow, which it lets nobody ignore; with it, a failure
  -- of the file system, which it drops.
  have hfail : (fresh.doErrands (releasingNothing [])).1.map (·.isOk) = [true, true, false] := by
    decide +kernel
  have hpass : (fresh.doErrands (releasingNothing [fullDisk])).1.map (·.isOk) =
      [true, true, true] := by
    decide +kernel
  rw [hsame, hfail] at hpass
  exact absurd hpass (by decide)

end Session

end Rollout
