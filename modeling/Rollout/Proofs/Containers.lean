import Mathlib.Logic.Function.Basic
import Rollout.Proofs.NameReading
import Rollout.World.Basic

/-!
# Jobs as containers

What the adapter of a container daemon does with a daemon that does not fail. The daemon may be any;
what is relied on is written down as `Daemon.Obeys`: containers are started, found and removed by
their names, and those with the label of jobs are listed.

On top of it every function of the adapter has one law: `Adapter.connect_law`,
`Adapter.ensureNetwork_law`, `Adapter.start_law`, `Adapter.schedule_law`,
`Adapter.unschedule_law_of_there` and `Adapter.unschedule_law_of_missing`, and
`Adapter.reports_law`. The laws hold for adapters in any state of preparation, so they say nothing
of the client and the network but that these are there afterwards.

Jobs are reported by their label and removed by their name. `Adapter.AreLabelled` is what makes the
two agree, and `Adapter.labels?_of_isNameOf` what makes it hold: the parser that finds the
application of a name gives back what the name was made of.
-/

namespace Rollout

/-! ### Daemons that do not fail -/

/-- What a daemon that does not fail does, whatever answers for it. `labels` looks up the labels of
the container of a name, and `sound` is what holds of the daemon all along. -/
structure Daemon.Obeys {σ : Type} (handle : Plan.Handler Daemon.Service σ)
    (labels : σ → String → Option Value) (sound : σ → Prop) : Prop where
  stays : ∀ request state, sound state → sound (handle request state).2
  connect : ∀ state, sound state → (handle .connect state).1 = .ok ()
  /-- A network is there, or it is said to be missing. -/
  findNetwork : ∀ network state, sound state →
    (handle (.findNetwork (.text network)) state).1 = .ok () ∨
      ∃ failure, (handle (.findNetwork (.text network)) state).1 = .error failure ∧
        failure.kind = .daemonMissing
  makeNetwork : ∀ network state, sound state → (handle (.makeNetwork network) state).1 = .ok ()
  info : ∀ state, sound state → ∃ entries, (handle .info state).1 = .ok (.dict entries)
  /-- A container is started under a name that is free, with the labels that are given. -/
  run : ∀ spec state, sound state → labels state spec.name = none →
    (handle (.run spec) state).1 = .ok () ∧
      labels (handle (.run spec) state).2 =
        Function.update (labels state) spec.name (some (.ofFields spec.labels))
  /-- A container is found by its name, and by nothing else. -/
  find : ∀ name state, sound state → labels state name ≠ none →
    (handle (.find (.text name)) state).1 = .ok ()
  missing : ∀ name state, sound state → labels state name = none →
    ∃ failure, (handle (.find (.text name)) state).1 = .error failure ∧
      failure.kind = .daemonMissing
  remove : ∀ name state, sound state → labels state name ≠ none →
    (handle (.remove (.text name)) state).1 = .ok () ∧
      labels (handle (.remove (.text name)) state).2 = Function.update (labels state) name none
  /-- The containers that carry the label of jobs are listed; these are all if all carry it. -/
  list : ∀ state, sound state →
    (∀ name found, labels state name = some found →
      ∃ job, Adapter.field Adapter.jobLabel .none found = .ok (.text job)) →
    ∃ containers, (handle .list state).1 = .ok containers ∧
      ∀ name found, labels state name = some found ↔
        ∃ container ∈ containers, container.name = name ∧ container.labels = found
  /-- Only starting and removing changes which containers there are. -/
  keeps : ∀ request state, sound state → (∀ spec, request ≠ .run spec) →
    (∀ name, request ≠ .remove name) → labels (handle request state).2 = labels state

/-- What answers like a daemon that does not fail does not fail. -/
theorem Daemon.Obeys.comap {σ τ : Type} {handle : Plan.Handler Daemon.Service σ}
    {labels : σ → String → Option Value} {sound : σ → Prop} (h : Obeys handle labels sound)
    {other : Plan.Handler Daemon.Service τ} {view : τ → σ} {calm : τ → Prop}
    (hanswer : ∀ request state, calm state →
      (other request state).1 = (handle request (view state)).1 ∧
        view (other request state).2 = (handle request (view state)).2 ∧
          calm (other request state).2) :
    Obeys other (fun state => labels (view state))
      fun state => calm state ∧ sound (view state) where
  stays request state hsound := by
    -- only here does the other state matter: it stays calm
    obtain ⟨-, hview, hcalm⟩ := hanswer request state hsound.1
    exact ⟨hcalm, hview ▸ h.stays request _ hsound.2⟩
  connect state hsound := by
    rw [(hanswer _ state hsound.1).1]
    exact h.connect _ hsound.2
  findNetwork network state hsound := by
    rw [(hanswer _ state hsound.1).1]
    exact h.findNetwork network _ hsound.2
  makeNetwork network state hsound := by
    rw [(hanswer _ state hsound.1).1]
    exact h.makeNetwork network _ hsound.2
  info state hsound := by
    rw [(hanswer _ state hsound.1).1]
    exact h.info _ hsound.2
  run spec state hsound hfree := by
    obtain ⟨hsame, hview, -⟩ := hanswer (.run spec) state hsound.1
    rw [hsame, hview]
    exact h.run spec _ hsound.2 hfree
  find name state hsound hthere := by
    rw [(hanswer _ state hsound.1).1]
    exact h.find name _ hsound.2 hthere
  missing name state hsound hmissing := by
    rw [(hanswer _ state hsound.1).1]
    exact h.missing name _ hsound.2 hmissing
  remove name state hsound hthere := by
    obtain ⟨hsame, hview, -⟩ := hanswer (.remove (.text name)) state hsound.1
    rw [hsame, hview]
    exact h.remove name _ hsound.2 hthere
  list state hsound hlabelled := by
    rw [(hanswer _ state hsound.1).1]
    exact h.list _ hsound.2 hlabelled
  keeps request state hsound hrun hremove := by
    rw [(hanswer request state hsound.1).2.1]
    exact h.keeps request _ hsound.2 hrun hremove

namespace Adapter

/-! ### Work of the adapter -/

namespace Act

variable {α β σ : Type} {handle : Plan.Handler Daemon.Service σ} {adapter after : Adapter}
  {state state' : σ}

/-- Lets a daemon answer the calls of an adapter. -/
def perform (handle : Plan.Handler Daemon.Service σ) (act : Act α) (adapter : Adapter) (state : σ) :
    Except Failure α × Adapter × σ :=
  let done := Plan.run handle (act.run.run adapter) state
  (done.1.1, done.1.2, done.2)

/-- **After work that succeeded the next work starts**; after work that failed nothing does. -/
theorem perform_bind (act : Act α) (next : α → Act β) (adapter : Adapter) (state : σ) :
    perform handle (act >>= next) adapter state =
      match perform handle act adapter state with
      | (.ok result, adapter, state) => perform handle (next result) adapter state
      | (.error failure, adapter, state) => (.error failure, adapter, state) := by
  have hrun : Plan.run handle ((act >>= next).run.run adapter) state =
      Plan.run handle (act.run.run adapter >>= fun done =>
        (ExceptT.bindCont next done.1 : StateT Adapter (Plan Daemon.Service) _).run done.2) state :=
    rfl
  rw [perform, perform, hrun, Plan.run_bind]
  rcases Plan.run handle (act.run.run adapter) state with ⟨⟨result | result, after⟩, state'⟩ <;> rfl

theorem perform_bind_ok {act : Act α} {next : α → Act β} {result : α}
    (h : perform handle act adapter state = (.ok result, after, state')) :
    perform handle (act >>= next) adapter state = perform handle (next result) after state' := by
  rw [perform_bind, h]

theorem perform_bind_error {act : Act α} {next : α → Act β} {failure : Failure}
    (h : perform handle act adapter state = (.error failure, after, state')) :
    perform handle (act >>= next) adapter state = (.error failure, after, state') := by
  rw [perform_bind, h]

theorem perform_ask (request : Daemon.Call) (adapter : Adapter) (state : σ) :
    perform handle (ofPlan (ask request)) adapter state =
      ((handle request state).1, adapter, (handle request state).2) := rfl

theorem perform_ofExcept (result : Except Failure α) (adapter : Adapter) (state : σ) :
    perform handle (ofExcept result) adapter state = (result, adapter, state) := rfl

theorem perform_get (adapter : Adapter) (state : σ) :
    perform handle (get : Act Adapter) adapter state = (.ok adapter, adapter, state) := rfl

theorem perform_modify (f : Adapter → Adapter) (adapter : Adapter) (state : σ) :
    perform handle (modify f : Act Unit) adapter state = (.ok (), f adapter, state) := rfl

/-- Work whose failure is looked at does not fail. -/
theorem perform_attempt {act : Act α} {result : Except Failure α}
    (h : perform handle act adapter state = (result, after, state')) :
    perform handle act.attempt adapter state = (.ok result, after, state') := by
  have hrun : Plan.run handle (act.attempt.run.run adapter) state =
      Plan.run handle (act.run.run adapter >>= fun done =>
        (pure (Except.ok done.1, done.2) : Plan Daemon.Service _)) state := rfl
  obtain ⟨rfl, rfl, rfl⟩ : _ = result ∧ _ = after ∧ _ = state' := by
    simpa only [perform, Prod.mk.injEq] using h
  rw [perform, hrun, Plan.run_bind]
  rfl

theorem perform_rejecting_ok {rejection : Failure → Failure} {work : Act α} {result : α}
    (h : perform handle work adapter state = (.ok result, after, state')) :
    perform handle (rejecting rejection work) adapter state = (.ok result, after, state') := by
  rw [rejecting, perform_bind_ok (perform_attempt h)]
  rfl

/-- A failure of the daemon becomes a rejection. -/
theorem perform_rejecting_error {rejection : Failure → Failure} {work : Act α} {failure : Failure}
    (h : perform handle work adapter state = (.error failure, after, state'))
    (hdaemon : failure.kind.isDaemon = true) :
    perform handle (rejecting rejection work) adapter state =
      (.error (rejection failure), after, state') := by
  rw [rejecting, perform_bind_ok (perform_attempt h)]
  simp only [hdaemon, if_true]
  rfl

end Act

/-! ### What the functions of the adapter do -/

variable {σ : Type} {handle : Plan.Handler Daemon.Service σ} {labels : σ → String → Option Value}
  {sound : σ → Prop} {adapter : Adapter} {state : σ}

/-- The daemon is as it was, as far as its containers go. It is still sound, so that more can be
asked of it. -/
structure Untouched (labels : σ → String → Option Value) (sound : σ → Prop) (before after : σ) :
    Prop where
  sound : sound after
  labels : labels after = labels before

/-- A call that neither starts nor removes leaves the containers alone. -/
theorem untouched_of_keeps (hobeys : Daemon.Obeys handle labels sound) (hsound : sound state)
    (request : Daemon.Call) (hrun : ∀ spec, request ≠ .run spec)
    (hremove : ∀ name, request ≠ .remove name) :
    Untouched labels sound state (handle request state).2 :=
  ⟨hobeys.stays _ _ hsound, hobeys.keeps _ _ hsound hrun hremove⟩

theorem Untouched.trans {before between after : σ} (h : Untouched labels sound before between)
    (h' : Untouched labels sound between after) : Untouched labels sound before after :=
  ⟨h'.sound, h'.labels.trans h.labels⟩

/-- The client is there afterwards. -/
theorem connect_law (hobeys : Daemon.Obeys handle labels sound) (hsound : sound state)
    (adapter : Adapter) :
    ∃ state', connect.perform handle adapter state =
        (.ok (), { adapter with connected := true }, state') ∧
      Untouched labels sound state state' := by
  rw [connect, Act.perform_bind_ok (Act.perform_get adapter state)]
  obtain ⟨connected, network, ready⟩ := adapter
  cases connected with
  | true => exact ⟨state, rfl, hsound, rfl⟩
  | false =>
    have hasked : Act.perform handle (Act.ofPlan (Act.ask .connect)) ⟨false, network, ready⟩ state =
        (.ok (), ⟨false, network, ready⟩, (handle .connect state).2) := by
      rw [Act.perform_ask, hobeys.connect state hsound]
    refine ⟨(handle .connect state).2, ?_,
      untouched_of_keeps hobeys hsound _ (fun _ => nofun) fun _ => nofun⟩
    exact (Act.perform_bind_ok (Act.perform_rejecting_ok hasked)).trans (Act.perform_modify _ _ _)

/-- A call that is made with the client, which is taken on first if need be. -/
theorem connected_law (hobeys : Daemon.Obeys handle labels sound) (hsound : sound state)
    (adapter : Adapter) (request : Daemon.Call) :
    ∃ ready, Untouched labels sound state ready ∧
      Act.perform handle (do connect; Act.ofPlan (Act.ask request)) adapter state =
        ((handle request ready).1, { adapter with connected := true },
          (handle request ready).2) := by
  obtain ⟨ready, hconnect, huntouched⟩ := connect_law hobeys hsound adapter
  refine ⟨ready, huntouched, ?_⟩
  rw [Act.perform_bind_ok hconnect, Act.perform_ask]

/-- The network is there afterwards, and the containers are as they were. -/
theorem ensureNetwork_law (hobeys : Daemon.Obeys handle labels sound) (hsound : sound state)
    {network : String} (hnetwork : adapter.network = .text network) :
    ∃ after state', ensureNetwork.perform handle adapter state = (.ok (), after, state') ∧
      after.network = .text network ∧ Untouched labels sound state state' := by
  obtain ⟨connected, network', networkReady⟩ := adapter
  obtain rfl : network' = .text network := hnetwork
  rw [ensureNetwork, Act.perform_bind_ok (Act.perform_get _ state)]
  cases networkReady with
  | true => exact ⟨_, state, rfl, rfl, hsound, rfl⟩
  | false =>
    simp only [Bool.false_eq_true, ↓reduceIte]
    rw [Act.perform_bind_ok (Act.perform_get _ state)]
    obtain ⟨asked, huntouched, hlooked⟩ :=
      connected_law hobeys hsound ⟨connected, .text network, false⟩ (.findNetwork (.text network))
    have hfound := huntouched.trans (untouched_of_keeps hobeys huntouched.sound
      (.findNetwork (.text network)) (fun _ => nofun) fun _ => nofun)
    rw [Act.perform_bind_ok (Act.perform_attempt hlooked)]
    rcases hobeys.findNetwork network asked huntouched.sound with
      hthere | ⟨failure, hfailure, hkind⟩
    · simp only [hthere]
      exact ⟨_, _, rfl, rfl, hfound⟩
    · -- the network is made, with the client that is there by now
      simp only [hfailure, hkind, ↓reduceIte]
      obtain ⟨ready, hready, hconnect⟩ :=
        connect_law hobeys hfound.sound ⟨true, .text network, false⟩
      have hmade : Act.perform handle (Act.ofPlan (Act.ask (.makeNetwork (.text network))))
          ⟨true, .text network, false⟩ ready =
            (.ok (), ⟨true, .text network, false⟩,
              (handle (.makeNetwork (.text network)) ready).2) := by
        rw [Act.perform_ask, hobeys.makeNetwork _ ready hconnect.sound]
      rw [Act.perform_bind_ok hready, Act.perform_bind_ok hmade]
      exact ⟨_, _, rfl, rfl, (hfound.trans hconnect).trans (untouched_of_keeps hobeys hconnect.sound
        _ (fun _ => nofun) fun _ => nofun)⟩

/-- A definition that the adapter takes: a reference for the image, and an environment. The name is
not among it, since names are checked by the adapter itself. -/
structure IsReady (definition : Definition) : Prop where
  image : ∃ repo id, definition.image = ⟨.text repo, .text id⟩
  environment : ∃ entries, definition.environment = .dict entries

/-- **A job is started as a container of its name.** -/
theorem start_law (hobeys : Daemon.Obeys handle labels sound) (hsound : sound state)
    {network : String} (hnetwork : adapter.network = .text network) {definition : Definition}
    (hready : IsReady definition) (hfree : labels state definition.name = none)
    (given : Named String) :
    ∃ after state',
      (start definition given).perform handle adapter state = (.ok (), after, state') ∧
      after.network = .text network ∧ sound state' ∧
      labels state' = Function.update (labels state) definition.name (some (.ofFields given)) := by
  -- network and client are made ready without touching a container
  obtain ⟨joined, between, hensure, hjoined, huntouched⟩ := ensureNetwork_law hobeys hsound hnetwork
  obtain ⟨ready, hconnect, hconnected⟩ := connect_law hobeys huntouched.sound joined
  obtain ⟨repo, id, himage⟩ := hready.image
  obtain ⟨entries, henvironment⟩ := hready.environment
  have hkept := huntouched.trans hconnected
  have himage : definition.image.reference? = .ok (Image.reference repo id) := by
    rw [himage]
    rfl
  have henvironment : definition.environment.toDictionary = .ok (.dict entries) := by
    rw [henvironment, Value.toDictionary_dict]
  rw [start, Act.perform_bind_ok hensure, Act.perform_bind_ok hconnect, himage, henvironment,
    Act.perform_bind_ok (Act.perform_ofExcept _ _ _),
    Act.perform_bind_ok (Act.perform_ofExcept _ _ _),
    Act.perform_bind_ok (Act.perform_get _ _), Act.perform_ask]
  -- the name is free still, so the daemon starts the container
  obtain ⟨hstarted, hlabelled⟩ := hobeys.run ⟨definition.name, Image.reference repo id,
    definition.command, .dict entries, joined.network, given⟩ ready hkept.sound
    (by rw [hkept.labels]; exact hfree)
  rw [hstarted]
  refine ⟨_, _, rfl, hjoined, hobeys.stays _ _ hkept.sound, ?_⟩
  rw [hlabelled, hkept.labels]

/-- A job whose name has labels is scheduled under them. -/
theorem schedule_law (hobeys : Daemon.Obeys handle labels sound) (hsound : sound state)
    {network : String} (hnetwork : adapter.network = .text network) {definition : Definition}
    (hready : IsReady definition) (hfree : labels state definition.name = none)
    {given : Named String} (hgiven : labels? definition.name = .ok given) :
    ∃ after state', (schedule definition).perform handle adapter state = (.ok (), after, state') ∧
      after.network = .text network ∧ sound state' ∧
      labels state' = Function.update (labels state) definition.name (some (.ofFields given)) := by
  obtain ⟨after, state', hstart, hrest⟩ :=
    start_law hobeys hsound hnetwork hready hfree given
  refine ⟨after, state', ?_, hrest⟩
  rw [schedule, hgiven, Act.perform_bind_ok (Act.perform_ofExcept _ _ _)]
  exact Act.perform_rejecting_ok hstart

/-- **A container is removed by its name.** -/
theorem unschedule_law_of_there (hobeys : Daemon.Obeys handle labels sound) (hsound : sound state)
    (adapter : Adapter) {name : String} (hthere : labels state name ≠ none) :
    ∃ state', (unschedule (.text name)).perform handle adapter state =
        (.ok (), { adapter with connected := true }, state') ∧
      sound state' ∧ labels state' = Function.update (labels state) name none := by
  obtain ⟨ready, hconnect, huntouched⟩ := connect_law hobeys hsound adapter
  -- looking for the container touches none
  have hfound := huntouched.trans (untouched_of_keeps hobeys huntouched.sound (.find (.text name))
    (fun _ => nofun) fun _ => nofun)
  obtain ⟨hremoved, hlabelled⟩ := hobeys.remove name _ hfound.sound
    (by rw [hfound.labels]; exact hthere)
  refine ⟨_, Act.perform_rejecting_ok ?_, hobeys.stays (.remove (.text name)) _ hfound.sound, ?_⟩
  · have hfind : Act.perform handle (Act.ofPlan (Act.ask (.find (.text name))))
        { adapter with connected := true } ready =
          (.ok (), { adapter with connected := true }, (handle (.find (.text name)) ready).2) := by
      rw [Act.perform_ask, hobeys.find name ready huntouched.sound
        (by rw [huntouched.labels]; exact hthere)]
    rw [Act.perform_bind_ok hconnect, Act.perform_bind_ok hfind, Act.perform_ask, hremoved]
  · rw [hlabelled, hfound.labels]

/-- **A name without a container is rejected as unknown.** -/
theorem unschedule_law_of_missing (hobeys : Daemon.Obeys handle labels sound)
    (hsound : sound state) (adapter : Adapter) {name : String}
    (hmissing : labels state name = none) :
    ∃ state', (unschedule (.text name)).perform handle adapter state =
        (.error (unknownJob (.text name)), { adapter with connected := true }, state') ∧
      Untouched labels sound state state' := by
  obtain ⟨ready, hconnect, huntouched⟩ := connect_law hobeys hsound adapter
  obtain ⟨failure, hfailure, hkind⟩ := hobeys.missing name ready huntouched.sound
    (by rw [huntouched.labels]; exact hmissing)
  have hfind : Act.perform handle (Act.ofPlan (Act.ask (.find (.text name))))
      { adapter with connected := true } ready =
        (.error failure, { adapter with connected := true },
          (handle (.find (.text name)) ready).2) := by
    rw [Act.perform_ask, hfailure]
  have hrejection : removalFailure (.text name) failure = unknownJob (.text name) := if_pos hkind
  refine ⟨(handle (.find (.text name)) ready).2, ?_, huntouched.trans (untouched_of_keeps hobeys
    huntouched.sound _ (fun _ => nofun) fun _ => nofun)⟩
  rw [unschedule, ← hrejection]
  refine Act.perform_rejecting_error ?_ (by rw [hkind]; rfl)
  rw [Act.perform_bind_ok hconnect, Act.perform_bind_error hfind]

/-- The containers are those of jobs: the labels say the name, and the application of the name. This
is the invariant of a cluster that only the adapter has worked on. -/
def AreLabelled (labels : String → Option Value) : Prop :=
  ∀ name found, labels name = some found →
    ∃ app, IsNameOf app name ∧ found = .ofFields [(appLabel, app), (jobLabel, name)]

/-- A container is added with the labels of its name. -/
theorem AreLabelled.update {labels : String → Option Value} (h : AreLabelled labels)
    {app name : String} (hname : IsNameOf app name) :
    AreLabelled (Function.update labels name
      (some (.ofFields [(appLabel, app), (jobLabel, name)]))) := by
  intro other found hfound
  by_cases hother : other = name
  · rw [hother, Function.update_self] at hfound
    exact ⟨app, hother ▸ hname, hother ▸ (Option.some.inj hfound).symm⟩
  · rw [Function.update_of_ne hother] at hfound
    exact h other found hfound

theorem AreLabelled.erase {labels : String → Option Value} (h : AreLabelled labels)
    (name : String) : AreLabelled (Function.update labels name none) := by
  intro other found hfound
  by_cases hother : other = name
  · rw [hother, Function.update_self] at hfound
    cases hfound
  · rw [Function.update_of_ne hother] at hfound
    exact h other found hfound

/-- Containers with the labels of their jobs are reported under the names of the jobs. -/
theorem mapM_reportOf {machine : Value} {containers : List Container}
    (h : ∀ container ∈ containers, ∃ app,
      container.labels = .ofFields [(appLabel, app), (jobLabel, container.name)]) :
    containers.mapM (reportOf machine) =
      .ok (containers.map fun container => ⟨.text container.name, machine, container.status⟩) := by
  induction containers with
  | nil => rfl
  | cons first rest ih =>
    obtain ⟨app, hfirst⟩ := h first List.mem_cons_self
    have hreport : reportOf machine first = .ok ⟨.text first.name, machine, first.status⟩ := by
      rw [reportOf, hfirst]
      rfl
    rw [List.mapM_cons, hreport, ih fun container hmem => h container (List.mem_cons_of_mem _ hmem)]
    rfl

/-- The adapter asks for the containers, and says of each what its labels say. -/
theorem exists_listed (hobeys : Daemon.Obeys handle labels sound) (hsound : sound state)
    (adapter : Adapter) (hlabelled : AreLabelled (labels state)) :
    ∃ (machine : Value) (containers : List Container) (state' : σ),
      reports.perform handle adapter state =
        (containers.mapM (reportOf machine), { adapter with connected := true }, state') ∧
      Untouched labels sound state state' ∧ ∀ name found, labels state name = some found ↔
        ∃ container ∈ containers, container.name = name ∧ container.labels = found := by
  -- the adapter connects, asks for the machine, connects once more, and asks for the containers;
  -- nothing of this touches a label
  obtain ⟨ready, hconnect, huntouched⟩ := connect_law hobeys hsound adapter
  obtain ⟨entries, hinfo⟩ := hobeys.info ready huntouched.sound
  have hinformed := huntouched.trans (untouched_of_keeps hobeys huntouched.sound .info
    (fun _ => nofun) fun _ => nofun)
  obtain ⟨again, hreconnect, hagain⟩ := connect_law hobeys hinformed.sound
    { adapter with connected := true }
  have hall := hinformed.trans hagain
  obtain ⟨containers, hlist, hcontainers⟩ := hobeys.list again hall.sound (by
    intro name found hfound
    rw [hall.labels] at hfound
    obtain ⟨app, -, rfl⟩ := hlabelled name found hfound
    exact ⟨name, rfl⟩)
  have hasked : Act.perform handle (Act.ofPlan (Act.ask .info)) { adapter with connected := true }
      ready =
        (.ok (.dict entries), { adapter with connected := true }, (handle .info ready).2) := by
    rw [Act.perform_ask, hinfo]
  have hlisted : Act.perform handle (Act.ofPlan (Act.ask .list)) { adapter with connected := true }
      again = (.ok containers, { adapter with connected := true }, (handle .list again).2) := by
    rw [Act.perform_ask, hlist]
  -- the machine has a name, or it is called unknown
  obtain ⟨machine, hmachine⟩ : ∃ machine,
      field "Name" (.text "unknown") (.dict entries) = .ok machine := ⟨_, rfl⟩
  refine ⟨machine, containers, (handle .list again).2, ?_, hall.trans (untouched_of_keeps hobeys
    hall.sound .list (fun _ => nofun) fun _ => nofun), ?_⟩
  · -- both answers are gathered first, and the reports are made of them
    have hgathered : Act.perform handle (do
          connect
          let info ← Act.ofPlan (Act.ask .info)
          let machine ← Act.ofExcept (field "Name" (.text "unknown") info)
          connect
          let containers ← Act.ofPlan (Act.ask .list)
          return (machine, containers)) adapter state =
        (.ok (machine, containers), { adapter with connected := true },
          (handle .list again).2) := by
      rw [Act.perform_bind_ok hconnect, Act.perform_bind_ok hasked, hmachine,
        Act.perform_bind_ok (Act.perform_ofExcept _ _ _), Act.perform_bind_ok hreconnect,
        Act.perform_bind_ok hlisted]
      rfl
    exact (Act.perform_bind_ok (Act.perform_rejecting_ok hgathered)).trans
      (Act.perform_ofExcept _ _ _)
  · rw [← hall.labels]
    exact hcontainers

/-- **What is reported are the names of the containers.** -/
theorem reports_law (hobeys : Daemon.Obeys handle labels sound) (hsound : sound state)
    (adapter : Adapter) (hlabelled : AreLabelled (labels state)) :
    ∃ listed state', reports.perform handle adapter state =
        (.ok listed, { adapter with connected := true }, state') ∧
      Untouched labels sound state state' ∧
      ∀ name, (∃ report ∈ listed, report.name = name) ↔
        ∃ s, name = .text s ∧ labels state s ≠ none := by
  obtain ⟨machine, containers, state', hreports, huntouched, hcontainers⟩ :=
    exists_listed hobeys hsound adapter hlabelled
  -- labelled containers can all be reported
  have hreported : containers.mapM (reportOf machine) =
      .ok (containers.map fun container => ⟨.text container.name, machine, container.status⟩) := by
    refine mapM_reportOf fun container hmem => ?_
    obtain ⟨app, -, hlabels⟩ := hlabelled container.name container.labels
      ((hcontainers _ _).mpr ⟨container, hmem, rfl, rfl⟩)
    exact ⟨app, hlabels⟩
  refine ⟨_, state', by rw [hreports, hreported], huntouched, fun name => ?_⟩
  simp only [List.mem_map, Option.ne_none_iff_exists']
  constructor
  · rintro ⟨report, ⟨container, hmem, rfl⟩, rfl⟩
    exact ⟨container.name, rfl, container.labels,
      (hcontainers _ _).mpr ⟨container, hmem, rfl, rfl⟩⟩
  · rintro ⟨s, rfl, found, hfound⟩
    obtain ⟨container, hmem, rfl, -⟩ := (hcontainers s found).mp hfound
    exact ⟨_, ⟨container, hmem, rfl⟩, rfl⟩

/-! ### Names of containers -/

/-- A name is made of characters that a container name may have, and starts with a letter or a
digit. -/
structure IsPlain (name : String) : Prop where
  first : name.toList.head?.any isAlphanumeric = true
  chars : name.toList.all isNameChar = true

/-- A plain name of more than one character passes as a container name. -/
theorem isContainerName_of_isPlain {name : String} (hplain : IsPlain name)
    (hdot : '.' ∈ name.toList) : isContainerName name = true := by
  obtain ⟨hfirst, hchars⟩ := hplain
  rw [isContainerName]
  cases hname : name.toList with
  | nil =>
    rw [hname] at hdot
    cases hdot
  | cons first rest =>
    rw [hname] at hfirst hchars hdot
    rw [List.all_cons, Bool.and_eq_true] at hchars
    have hfirst : isAlphanumeric first = true := hfirst
    -- no character of a plain name is a line end
    have hnoEnd : dropLineEnd (first :: rest) = first :: rest := by
      refine if_neg fun hlast => ?_
      have hmem := List.mem_of_getLast? hlast
      rw [List.mem_cons] at hmem
      rcases hmem with rfl | hmem
      · exact absurd hfirst (by decide)
      · exact absurd (List.all_eq_true.mp hchars.2 _ hmem) (by decide)
    -- a name of one character would be the dot, which is not alphanumeric
    have hrest : rest.isEmpty = false := by
      cases rest with
      | nil =>
        obtain rfl := List.mem_singleton.mp hdot
        exact absurd hfirst (by decide)
      | cons _ _ => rfl
    rw [hnoEnd]
    simp only [hfirst, hrest, hchars.2]
    rfl

/-- **A plain job name is labelled with the application that it was made of.** -/
theorem labels?_of_isNameOf {app name : String} (hname : IsNameOf app name)
    (hplain : IsPlain name) :
    labels? name = .ok [(appLabel, app), (jobLabel, name)] := by
  obtain ⟨version, type, ordinal, htext⟩ := hname
  obtain ⟨fields, hvalid, hwritable, rfl, happ, -⟩ := JobName.text?_eq_ok htext
  have hcontainer : isContainerName fields.text = true := by
    refine isContainerName_of_isPlain hplain ?_
    simp only [JobName.text, String.toList_append, List.mem_append]
    exact .inl (.inr (by decide))
  rw [labels?, hcontainer, JobName.parse_text hvalid hwritable, Value.text.inj happ]
  rfl

end Adapter

end Rollout
