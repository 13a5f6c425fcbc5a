import Mathlib.Data.List.Nodup
import Rollout.Proofs.Containers

/-!
# Containers and memory

A cluster in memory and the adapter of a container daemon are two schedulers. They cannot be told
apart by what they answer, as long as the daemon does not fail: `Cluster.simulates`.

`Cluster.Mirrors` relates the containers to what is held in memory. The names are the same, and
every container has the labels that belong to its name. `Cluster.Mirrors.order` is the step and
`Cluster.Mirrors.orders` the run.

The daemon of this library is one that does not fail (`Daemon.obeys_answer`), and so is that of a
world without faults (`World.obeys_daemonAnswer`).
-/

namespace Rollout

namespace Cluster

/-! ### Orders -/

/-- What is asked of a scheduler. It may be asked of one in memory and of an adapter, so the answers
can be compared. -/
inductive Order where
  | schedule (definition : Definition)
  | unschedule (name : String)
  | report

/-- A job that is scheduled under a plain name, in an image of texts and with an environment. Under
other names the adapter or its daemon refuses what a scheduler in memory takes. -/
structure IsOrdinary (definition : Definition) : Prop where
  named : ∃ app, IsNameOf app definition.name
  plain : Adapter.IsPlain definition.name
  ready : Adapter.IsReady definition

namespace Order

/-- The scheduler in memory takes an order. Its reports never fail. -/
def inMemory : Order → Memory → Except Failure Unit × Memory
  | schedule definition, memory => memory.schedule definition
  | unschedule name, memory => memory.unschedule (.text name)
  | report, memory => (.ok (), memory)

/-- The adapter takes an order. -/
def inAdapter : Order → Adapter.Act Unit
  | schedule definition => Adapter.schedule definition
  | unschedule name => Adapter.unschedule (.text name)
  | report => do
    let _ ← Adapter.reports

/-- Nothing is scheduled under a name that is in use. -/
def IsLegal (memory : Memory) : Order → Prop
  | schedule definition => IsOrdinary definition ∧ definition.name ∉ memory.jobs.names
  | _ => True

end Order

/-- The answers to orders in memory, and what is held then. -/
def ordersInMemory : List Order → Memory → List (Except Failure Unit) × Memory
  | [], memory => ([], memory)
  | order :: rest, memory =>
    let taken := order.inMemory memory
    let later := ordersInMemory rest taken.2
    (taken.1 :: later.1, later.2)

/-- The answers of the adapter to orders, and how it and the daemon are then. -/
def ordersInAdapter {σ : Type} (handle : Plan.Handler Daemon.Service σ) :
    List Order → Adapter → σ → List (Except Failure Unit) × Adapter × σ
  | [], adapter, state => ([], adapter, state)
  | order :: rest, adapter, state =>
    let taken := order.inAdapter.perform handle adapter state
    let later := ordersInAdapter handle rest taken.2.1 taken.2.2
    (taken.1 :: later.1, later.2)

/-- Each order is legal when it is given. -/
def AreLegal : List Order → Memory → Prop
  | [], _ => True
  | order :: rest, memory => order.IsLegal memory ∧ AreLegal rest (order.inMemory memory).2

/-! ### The simulation -/

/-- The containers are the jobs that are held in memory, under the same names. It is the simulation
relation: the labels of containers stand for what the daemon has, whichever daemon it is. -/
structure Mirrors {σ : Type} (labels : σ → String → Option Value) (sound : σ → Prop)
    (adapter : Adapter) (state : σ) (memory : Memory) : Prop where
  sound : sound state
  network : ∃ network, adapter.network = .text network
  live : ∀ name, labels state name ≠ none ↔ name ∈ memory.jobs.names
  labelled : Adapter.AreLabelled (labels state)

section Simulation

variable {σ : Type} {handle : Plan.Handler Daemon.Service σ} {labels : σ → String → Option Value}
  {sound : σ → Prop} {adapter : Adapter} {state : σ} {memory : Memory}

theorem Mirrors.of_untouched {after : Adapter} {state' : σ}
    (h : Mirrors labels sound adapter state memory) (hnetwork : after.network = adapter.network)
    (huntouched : Adapter.Untouched labels sound state state') :
    Mirrors labels sound after state' memory where
  sound := huntouched.sound
  network := by
    rw [hnetwork]
    exact h.network
  live := by
    rw [huntouched.labels]
    exact h.live
  labelled := by
    rw [huntouched.labels]
    exact h.labelled

/-- A new job gets a container of its own. -/
theorem Mirrors.schedule (hobeys : Daemon.Obeys handle labels sound)
    (h : Mirrors labels sound adapter state memory) {definition : Definition}
    (hordinary : IsOrdinary definition) (hnew : definition.name ∉ memory.jobs.names) :
    ∃ after state', (Adapter.schedule definition).perform handle adapter state =
        ((memory.schedule definition).1, after, state') ∧
      Mirrors labels sound after state' (memory.schedule definition).2 := by
  obtain ⟨network, hnetwork⟩ := h.network
  obtain ⟨⟨app, happ⟩, hplain, hready⟩ := hordinary
  -- The name is new in memory, so no container has it.
  have hfree : labels state definition.name = none := by
    by_contra hlive
    exact hnew ((h.live _).mp hlive)
  obtain ⟨after, state', hschedule, hnetwork', hsound, hlabels⟩ :=
    Adapter.schedule_law hobeys h.sound hnetwork hready hfree
      (Adapter.labels?_of_isNameOf happ hplain)
  refine ⟨after, state', hschedule, hsound, ⟨network, hnetwork'⟩, fun name => ?_, ?_⟩
  · refine Iff.trans ?_ (Memory.mem_names_schedule definition memory name).symm
    rw [hlabels, ← h.live name]
    -- one name is new on both sides, and all others are as before
    by_cases hname : name = definition.name
    · rw [hname, Function.update_self]
      exact iff_of_true (Option.some_ne_none _) (.inl rfl)
    · rw [Function.update_of_ne hname]
      exact (or_iff_right hname).symm
  · rw [hlabels]
    exact h.labelled.update happ

/-- The container of a job is removed with the job, and both answer that there is none if there is
none. -/
theorem Mirrors.unschedule (hobeys : Daemon.Obeys handle labels sound)
    (h : Mirrors labels sound adapter state memory) (name : String) :
    ∃ after state', (Adapter.unschedule (.text name)).perform handle adapter state =
        ((memory.unschedule (.text name)).1, after, state') ∧
      Mirrors labels sound after state' (memory.unschedule (.text name)).2 := by
  by_cases hmem : name ∈ memory.jobs.names
  · -- both drop the name
    obtain ⟨state', hunschedule, hsound, hlabels⟩ :=
      Adapter.unschedule_law_of_there hobeys h.sound adapter ((h.live name).mpr hmem)
    rw [Memory.unschedule_of_mem hmem]
    refine ⟨_, state', hunschedule, hsound, h.network, fun other => ?_, ?_⟩
    · rw [Named.mem_names_erase, ← h.live other, hlabels]
      by_cases hother : other = name
      · rw [hother, Function.update_self]
        exact iff_of_false (fun hne => hne rfl) fun hne => hne.1 rfl
      · rw [Function.update_of_ne hother]
        exact (and_iff_right hother).symm
    · rw [hlabels]
      exact h.labelled.erase name
  · -- neither knows the name, and both say so
    have hmissing : labels state name = none := by
      by_contra hlive
      exact hmem ((h.live name).mp hlive)
    obtain ⟨state', hunschedule, huntouched⟩ :=
      Adapter.unschedule_law_of_missing hobeys h.sound adapter hmissing
    rw [Memory.unschedule_of_not_mem hmem]
    exact ⟨_, state', hunschedule, h.of_untouched rfl huntouched⟩

/-- **Each order is answered alike**, and the containers are the jobs in memory afterwards. This is
the step of the simulation; the order may be refused, by both and with the same message. -/
theorem Mirrors.order (hobeys : Daemon.Obeys handle labels sound)
    (h : Mirrors labels sound adapter state memory) {order : Order}
    (hlegal : order.IsLegal memory) :
    ∃ after state', order.inAdapter.perform handle adapter state =
        ((order.inMemory memory).1, after, state') ∧
      Mirrors labels sound after state' (order.inMemory memory).2 := by
  -- One case for each kind of order; the answers are compared where the relation is kept up.
  cases order with
  | schedule definition => exact h.schedule hobeys hlegal.1 hlegal.2
  | unschedule name => exact h.unschedule hobeys name
  | report =>
    obtain ⟨listed, state', hreports, huntouched, -⟩ :=
      Adapter.reports_law hobeys h.sound adapter h.labelled
    refine ⟨{ adapter with connected := true }, state', ?_, h.of_untouched rfl huntouched⟩
    exact (Adapter.Act.perform_bind_ok hreports).trans rfl

/-- **Orders are answered alike**, one after the other. By induction on the orders, each of which
must be legal where the ones before it have led. -/
theorem Mirrors.orders (hobeys : Daemon.Obeys handle labels sound)
    (h : Mirrors labels sound adapter state memory) {orders : List Order}
    (hlegal : AreLegal orders memory) :
    ∃ after state', ordersInAdapter handle orders adapter state =
        ((ordersInMemory orders memory).1, after, state') ∧
      Mirrors labels sound after state' (ordersInMemory orders memory).2 := by
  -- On the orders: one step of either side, and the relation holds again.
  induction orders generalizing adapter state memory with
  | nil => exact ⟨adapter, state, rfl, h⟩
  | cons first rest ih =>
    obtain ⟨between, state', hfirst, hbetween⟩ := h.order hobeys hlegal.1
    obtain ⟨after, state'', hrest, hafter⟩ := ih hbetween hlegal.2
    refine ⟨after, state'', ?_, hafter⟩
    rw [ordersInAdapter, hfirst]
    simp only [hrest]
    rfl

/-- **The adapter simulates the scheduler in memory.** After any orders both have given the same
answers and report the same names, and each container has the label of the application that its name
was made of. -/
theorem simulates (hobeys : Daemon.Obeys handle labels sound) (hsound : sound state)
    (hnetwork : ∃ network, adapter.network = .text network)
    (hempty : ∀ name, labels state name = none) (machine : String) {orders : List Order}
    (hlegal : AreLegal orders ⟨machine, []⟩) :
    ∃ after state', ordersInAdapter handle orders adapter state =
        ((ordersInMemory orders ⟨machine, []⟩).1, after, state') ∧
      (∃ listed, (Adapter.reports.perform handle after state').1 = .ok listed ∧
        ∀ name, (∃ report ∈ listed, report.name = name) ↔
          ∃ report ∈ (ordersInMemory orders ⟨machine, []⟩).2.reports, report.name = name) ∧
      ∀ name found, labels state' name = some found →
        ∃ app, IsNameOf app name ∧
          Adapter.field Adapter.appLabel .none found = .ok (.text app) := by
  -- At the start there are no containers and no jobs.
  have hstart : Mirrors labels sound adapter state ⟨machine, []⟩ := by
    refine ⟨hsound, hnetwork, fun name => ?_, fun name found hfound => ?_⟩
    · exact iff_of_false (fun hne => hne (hempty name)) List.not_mem_nil
    · rw [hempty name] at hfound
      cases hfound
  -- After all orders the relation is still there, and both reports can be read off it.
  obtain ⟨after, state', hanswers, hafter⟩ := hstart.orders hobeys hlegal
  refine ⟨after, state', hanswers, ?_, fun name found hfound => ?_⟩
  · obtain ⟨listed, state'', hreports, -, hnames⟩ :=
      Adapter.reports_law hobeys hafter.sound after hafter.labelled
    refine ⟨listed, by rw [hreports], fun name => ?_⟩
    rw [hnames]
    simp only [hafter.live, Memory.reports, List.mem_map]
    constructor
    · rintro ⟨s, rfl, hmem⟩
      exact ⟨_, ⟨s, hmem, rfl⟩, rfl⟩
    · rintro ⟨report, ⟨s, hmem, rfl⟩, rfl⟩
      exact ⟨s, rfl, hmem⟩
  · obtain ⟨app, hname, rfl⟩ := hafter.labelled name found hfound
    exact ⟨app, hname, rfl⟩

end Simulation

end Cluster

/-! ### Daemons of this library -/

namespace Daemon

/-- The labels of the container of a name, if there is such a container. The first one counts, and
in a sound daemon it is the only one. -/
def labels (daemon : Daemon) (name : String) : Option Value :=
  (daemon.containers.find? fun container => container.name = name).map (·.labels)

/-- No two containers share a name, and the daemon says something about itself. Starting and
removing containers keeps both. -/
structure IsSound (daemon : Daemon) : Prop where
  distinct : daemon.names.Nodup
  info : ∃ entries, daemon.info = .dict entries

theorem labels_eq_none {daemon : Daemon} {name : String} :
    daemon.labels name = none ↔ name ∉ daemon.names := by
  simp [labels, names]

theorem isNamed_text (name : String) (container : Container) :
    isNamed (.text name) container = decide (container.name = name) := by
  rw [isNamed, Value.same_text, Bool.beq_comm]
  rfl

/-- A text is looked for among the names of the containers. -/
theorem find_text (name : String) (absent : Failure) (daemon : Daemon) :
    daemon.find (.text name) absent = if name ∈ daemon.names then .ok () else .error absent := by
  -- Texts are the same exactly if they are equal, so it comes down to being among the names.
  have hany : daemon.containers.any (isNamed (.text name)) = decide (name ∈ daemon.names) := by
    simp [names, isNamed_text, List.any_eq]
  rw [find, hany]
  by_cases hmem : name ∈ daemon.names <;> simp [hmem, Value.isKey]

/-- A container is started under a free name, behind all others. -/
theorem start_of_free {daemon : Daemon} {spec : ContainerSpec} (hfree : spec.name ∉ daemon.names) :
    daemon.start spec = (.ok (), { daemon with
      containers :=
        daemon.containers ++ [⟨spec.name, .ofFields spec.labels, .text "running"⟩] }) := by
  refine if_neg ?_
  rwa [List.contains_eq_mem, decide_eq_true_eq]

/-- A container that comes last has its labels if its name is free. -/
theorem labels_append {daemon : Daemon} {container : Container}
    (hfree : container.name ∉ daemon.names) :
    labels { daemon with containers := daemon.containers ++ [container] } =
      Function.update daemon.labels container.name (some container.labels) := by
  ext1 name
  -- The new container is looked at last.
  have hfound : labels { daemon with containers := daemon.containers ++ [container] } name =
      ((daemon.containers.find? fun other => other.name = name).or
        ([container].find? fun other => other.name = name)).map (·.labels) := by
    rw [labels, List.find?_append]
  rw [hfound]
  by_cases hname : name = container.name
  · have hnone : (daemon.containers.find? fun other => other.name = name) = none :=
      Option.map_eq_none_iff.mp (labels_eq_none.mpr (hname ▸ hfree))
    rw [hnone, hname, Function.update_self]
    simp
  · have hother : ([container].find? fun other => other.name = name) = none := by
      simpa using Ne.symm hname
    rw [hother, Option.or_none, Function.update_of_ne hname]
    rfl

/-- A container that is removed is gone, and the others stay. -/
theorem labels_discard (name : String) (daemon : Daemon) :
    (daemon.discard (.text name)).labels = Function.update daemon.labels name none := by
  ext1 other
  rw [labels, discard, List.find?_filter]
  -- The removed name finds nothing, and any other one finds what it found before.
  by_cases hother : other = name
  · rw [hother, Function.update_self, Option.map_eq_none_iff, List.find?_eq_none]
    simp [isNamed_text]
  · rw [Function.update_of_ne hother, labels]
    congr 2
    funext container
    by_cases hname : container.name = other <;> simp [isNamed_text, hname, hother]

/-- A name that is there once has the labels of its container. -/
theorem labels_eq_some {daemon : Daemon} (h : daemon.names.Nodup) {name : String} {found : Value} :
    daemon.labels name = some found ↔
      ∃ container ∈ daemon.containers, container.name = name ∧ container.labels = found := by
  rw [labels, Option.map_eq_some_iff]
  constructor
  · rintro ⟨container, hfound, rfl⟩
    exact ⟨container, List.mem_of_find?_eq_some hfound, by simpa using List.find?_some hfound, rfl⟩
  · rintro ⟨container, hmem, rfl, rfl⟩
    cases hfound : daemon.containers.find? fun other => other.name = container.name with
    | none =>
      have hnone := List.find?_eq_none.mp hfound container hmem
      exact absurd (decide_eq_true rfl) hnone
    | some other =>
      -- another container of the name would be the same one
      have hname : other.name = container.name := by simpa using List.find?_some hfound
      have hsame := List.inj_on_of_nodup_map h (List.mem_of_find?_eq_some hfound) hmem hname
      exact ⟨other, rfl, congrArg _ hsame⟩

/-- A container is started under a name that is free, so names stay distinct. -/
theorem IsSound.start {daemon : Daemon} (h : daemon.IsSound) (spec : ContainerSpec) :
    (daemon.start spec).2.IsSound := by
  -- A name that is taken is refused, so a name that comes in was free.
  by_cases hnew : spec.name ∈ daemon.names
  · have hrefused : daemon.start spec = (.error (.containerExists spec.name), daemon) := by
      refine if_pos ?_
      rwa [List.contains_eq_mem, decide_eq_true_eq]
    rw [hrefused]
    exact h
  · rw [start_of_free hnew]
    refine ⟨?_, h.info⟩
    rw [names, List.map_append, List.map_singleton, List.nodup_append]
    refine ⟨h.distinct, List.nodup_singleton _, fun name hmem last hlast => ?_⟩
    rw [List.mem_singleton.mp hlast]
    exact fun (heq : name = spec.name) => hnew (heq ▸ hmem)

/-- **The daemon of this library does not fail.** It stands in for daemons in good order, so that
what is asked of them is not asked in vain. -/
theorem obeys_answer : Obeys answer labels IsSound where
  stays request daemon h := by
    -- starting and removing alone touch the containers
    cases request with
    | run spec => exact h.start spec
    | remove name => exact ⟨h.distinct.sublist (List.filter_sublist.map _), h.info⟩
    | makeNetwork name => exact ⟨h.distinct, h.info⟩
    | _ => exact h
  connect _ _ := rfl
  findNetwork network daemon _ := by
    rw [answer, Daemon.findNetwork]
    split
    · exact .inl rfl
    · exact .inr ⟨_, rfl, rfl⟩
  makeNetwork _ _ _ := rfl
  info daemon h := by
    obtain ⟨entries, hinfo⟩ := h.info
    exact ⟨entries, congrArg _ hinfo⟩
  run spec daemon _ hfree := by
    have hnew := labels_eq_none.mp hfree
    have hstart := start_of_free hnew
    rw [answer, hstart]
    exact ⟨rfl, labels_append hnew⟩
  find name daemon _ hthere := by
    rw [answer, find_text, if_pos]
    rwa [Ne, labels_eq_none, not_not] at hthere
  missing name daemon _ hmissing := by
    rw [answer, find_text, if_neg (labels_eq_none.mp hmissing)]
    exact ⟨_, rfl, rfl⟩
  remove name daemon _ _ := ⟨rfl, labels_discard name daemon⟩
  list daemon h _ := ⟨daemon.containers, rfl, fun _ _ => labels_eq_some h.distinct⟩
  keeps request daemon _ hrun hremove := by
    cases request with
    | run spec =>
      -- what `keeps` asks excludes just the two requests that change labels
      exact absurd rfl (hrun spec)
    | remove name => exact absurd rfl (hremove name)
    | _ => rfl

end Daemon

/-- **The daemon of a world without faults does not fail.** Faults are the only way in which it
differs from one in good order. -/
theorem World.obeys_daemonAnswer :
    Daemon.Obeys World.daemonAnswer (fun world => world.daemon.labels)
      fun world => world.faults = [] ∧ world.daemon.IsSound := by
  refine Daemon.obeys_answer.comap fun request world hfaults => ?_
  -- Without faults a call is put on record and then made.
  have hanswer : World.daemonAnswer request world =
      World.daemonReal (Daemon.answer request)
        { world with history := world.history ++ [.daemon request] } :=
    World.recorded_of_no_faults _ _ hfaults
  rw [hanswer]
  exact ⟨rfl, rfl, hfaults⟩

namespace Cluster

/-- A job under a plain name. -/
def webJob : Definition :=
  ⟨"web.3.web.1", .text "./run", ⟨.text "repo", .text "v3"⟩, .ofFields [("MODE", "plain")]⟩

/-- A job comes and goes, and comes again; another one was never there. -/
def comings : List Order :=
  [.schedule webJob, .report, .unschedule "web.3.web.2", .unschedule "web.3.web.1",
    .unschedule "web.3.web.1", .schedule webJob]

theorem isOrdinary_webJob : IsOrdinary webJob := by
  have hname : JobName.text? (.text "web") (.int 3) (.text "web") (.int 1) = .ok "web.3.web.1" :=
    eq_ok_of_toOption (by decide +kernel)
  exact ⟨⟨"web", _, _, _, hname⟩, ⟨by decide, by decide⟩, ⟨⟨_, _, rfl⟩, ⟨_, rfl⟩⟩⟩

/-- **Two of the orders are refused, by both alike.** -/
theorem simulates_comings :
    (ordersInMemory comings ⟨"memory-0", []⟩).1.map (·.toOption.isSome) =
        [true, true, false, true, false, true] ∧
      ∃ after daemon,
        ordersInAdapter Daemon.answer comings ⟨false, .text "relman", false⟩ ⟨[], [], .dict []⟩ =
          ((ordersInMemory comings ⟨"memory-0", []⟩).1, after, daemon) ∧
        (∃ listed, (Adapter.reports.perform Daemon.answer after daemon).1 = .ok listed ∧
          ∀ name, (∃ report ∈ listed, report.name = name) ↔
            ∃ report ∈ (ordersInMemory comings ⟨"memory-0", []⟩).2.reports, report.name = name) ∧
        ∀ name found, daemon.labels name = some found →
          ∃ app, IsNameOf app name ∧
            Adapter.field Adapter.appLabel .none found = .ok (.text app) := by
  -- No name is scheduled while it is in use, which is checked order by order.
  have hlegal : AreLegal comings ⟨"memory-0", []⟩ :=
    ⟨⟨isOrdinary_webJob, by decide +kernel⟩, trivial, trivial, trivial, trivial,
      ⟨isOrdinary_webJob, by decide +kernel⟩, trivial⟩
  have hsound : Daemon.IsSound ⟨[], [], .dict []⟩ := ⟨List.nodup_nil, _, rfl⟩
  exact ⟨by decide +kernel, simulates Daemon.obeys_answer hsound ⟨_, rfl⟩ (fun _ => rfl) "memory-0"
    hlegal⟩

end Cluster

end Rollout
