import Rollout.Proofs.DaemonFlags
import Rollout.Proofs.Mirroring

/-!
# The discipline of a session with the daemon

An adapter takes orders, one after the other, and every call that it makes to the daemon may fail.
Each order is carried out in an orderly way (`Cluster.Order.goes`), with an adapter that knows what
was said in the turns before, so by induction all of them are (`Cluster.recalls_of_turns`,
`Cluster.admits_of_spoken`).

`Cluster.Disciplined` is what this comes to for a whole session, and `Cluster.turns_disciplined`
that every session is so. That only rejections come out needs a daemon that fails as daemons do,
`Daemon.FailsInKind`; nothing else does. The daemon of a world is one, with any such faults
(`World.failsInKind_daemonAnswer`).
-/

namespace Rollout

/-! ### Turns -/

namespace Cluster

/-- The order needs a client: any but one that is turned down for its name. -/
def Order.NeedsClient : Order → Prop
  | schedule definition => ∃ labels, Adapter.labels? definition.name = .ok labels
  | unschedule _ | report => True

/-- The order is one that the adapter takes. -/
def Order.IsReady : Order → Prop
  | schedule definition => Adapter.IsReady definition
  | unschedule _ | report => True

/-- An order, what the adapter said to the daemon for it, and how it ended. An order may be carried
out without a word, if nothing has to be asked. -/
structure Turn where
  order : Order
  said : Adapter.Talk
  result : Except Failure Unit

/-- The turns of an adapter that takes orders. -/
def turns {σ : Type} (handle : Plan.Handler Daemon.Service σ) : List Order → Adapter → σ → List Turn
  | [], _, _ => []
  | order :: rest, adapter, state =>
    let taken := order.inAdapter.perform handle adapter state
    ⟨order, (order.inAdapter.run.run adapter).conversation handle state, taken.1⟩ ::
      turns handle rest taken.2.1 taken.2.2

/-- All that was said in turns. -/
def spoken (turns : List Turn) : Adapter.Talk := turns.flatMap (·.said)

end Cluster

/-- A daemon that fails as daemons do, whatever answers for it. `sound` is what holds of it all
along. -/
structure Daemon.FailsInKind {σ : Type} (handle : Plan.Handler Daemon.Service σ)
    (sound : σ → Prop) : Prop where
  stays : ∀ request state, sound state → sound (handle request state).2
  answers : ∀ request state, sound state → Adapter.InKind ⟨request, (handle request state).1⟩

/-- All that a daemon says that fails as daemons do is in kind. -/
theorem Daemon.FailsInKind.conversation {σ α : Type} {handle : Plan.Handler Daemon.Service σ}
    {sound : σ → Prop} (h : FailsInKind handle sound) {state : σ} (hsound : sound state)
    (plan : Plan Daemon.Service α) :
    (∀ exchange ∈ plan.conversation handle state, Adapter.InKind exchange) ∧
      sound (plan.run handle state).2 := by
  induction plan generalizing state with
  | done result => exact ⟨fun _ hmem => (nomatch hmem), hsound⟩
  | call request next ih =>
    obtain ⟨hrest, hend⟩ := ih (handle request state).1 (h.stays request state hsound)
    refine ⟨fun exchange hmem => ?_, hend⟩
    rcases List.mem_cons.mp hmem with rfl | hmem
    · exact h.answers request state hsound
    · exact hrest exchange hmem

namespace Cluster

section Turns

open Adapter (Talk Recalls Goes HasClient HasNetwork InKind)

variable {given : Bool} {network : Value} {past said : Talk} {adapter after : Adapter}
  {result : Except Failure Unit} {order : Order}

/-- A report says what the adapter asks for it. -/
theorem Order.report_tells (h : report.inAdapter.Tells adapter said result after) :
    ∃ reported, Adapter.reports.Tells adapter said reported after ∧
      result = reported.map fun _ => () := by
  rcases h.bind_cases with
    ⟨listed, middle, first, rest, hreports, hend, rfl⟩ | ⟨failure, hreports, rfl⟩
  · obtain ⟨rfl, hsame⟩ := Plan.leads_done_iff.mp hend
    obtain ⟨rfl, rfl⟩ := Prod.mk.inj hsame
    rw [List.append_nil]
    exact ⟨.ok listed, hreports, rfl⟩
  · exact ⟨.error failure, hreports, rfl⟩

/-- **Each order is carried out in an orderly way.** What it may ask of the daemon depends on the
past only through what the adapter recalls of it. -/
theorem Order.goes (hrecalls : Recalls given network past adapter)
    (h : order.inAdapter.Tells adapter said result after) :
    Goes given network past said after := by
  have hgoes := hrecalls.goes
  rw [← List.nil_append said]
  cases order with
  | schedule definition =>
    cases hlabels : Adapter.labels? definition.name with
    | error failure =>
      obtain ⟨rfl, -, rfl⟩ := Adapter.schedule_tells_of_labels?_eq_error h hlabels
      exact hgoes
    | ok labels =>
      obtain ⟨inner, hstart, -⟩ := Adapter.schedule_tells h hlabels hrecalls.isCoherent
      exact hgoes.start hstart
  | unschedule name =>
    obtain ⟨inner, hremove, -⟩ := Adapter.unschedule_tells h
    exact hgoes.remove hremove
  | report =>
    obtain ⟨reported, hreports, -⟩ := report_tells h
    obtain ⟨inner, hlist, -⟩ := Adapter.reports_tells hreports
    exact hgoes.list hlist

/-- **Nothing but rejections comes out of an order.** A failure of the daemon is turned into one,
and an order that is ready has no other failures of its own. -/
theorem Order.rejects (hrecalls : Recalls given network past adapter)
    (hnetwork : ∃ text, network = .text text) (hready : order.IsReady) {failure : Failure}
    (h : order.inAdapter.Tells adapter said (.error failure) after)
    (hkind : ∀ exchange ∈ said, InKind exchange) : failure.kind = .rejection := by
  have hnetwork : ∃ text, adapter.network = .text text := by
    rw [hrecalls.configured]
    exact hnetwork
  cases order with
  | schedule definition =>
    cases hlabels : Adapter.labels? definition.name with
    | error cause =>
      -- a name without labels is refused before anything is said
      obtain ⟨-, hcause, -⟩ := Adapter.schedule_tells_of_labels?_eq_error h hlabels
      obtain rfl := Except.error.inj hcause
      exact Adapter.kind_of_labels?_eq_error hlabels
    | ok labels =>
      obtain ⟨inner, hstart, hresult⟩ := Adapter.schedule_tells h hlabels hrecalls.isCoherent
      cases inner with
      | ok _ => cases hresult
      | error cause =>
        obtain rfl := Except.error.inj hresult
        -- whatever a start fails with is turned into a rejection
        exact (hstart.refuses hready hnetwork hkind).turned fun _ => rfl
  | unschedule name =>
    obtain ⟨inner, hremove, hresult⟩ := Adapter.unschedule_tells h
    cases inner with
    | ok _ => cases hresult
    | error cause =>
      obtain rfl := Except.error.inj hresult
      exact (hremove.refuses hkind).turned (Adapter.kind_removalFailure name)
  | report =>
    obtain ⟨reported, hreports, hresult⟩ := report_tells h
    obtain ⟨inner, hlist, rfl⟩ := Adapter.reports_tells hreports
    cases inner with
    | error cause =>
      obtain rfl := Except.error.inj hresult
      exact (hlist.refuses hkind).turned fun _ => rfl
    | ok listed =>
      -- what a container is labelled with can be reported, so the reports cannot fail
      obtain ⟨reports, hmade⟩ := hlist.exists_reports hkind
      change _ = (listed.2.mapM (Adapter.reportOf listed.1)).map fun _ => () at hresult
      rw [hmade] at hresult
      cases hresult

/-- **Whoever needs a client asks for one first**, as long as there is none. An order that is
refused by its name alone needs no client, and then nothing is said at all. -/
theorem Order.asks (hrecalls : Recalls given network past adapter)
    (hclient : ¬HasClient given past) (hneeds : order.NeedsClient)
    (h : order.inAdapter.Tells adapter said result after) :
    ∃ answer rest, said = ⟨.connect, answer⟩ :: rest := by
  have hnone : adapter.connected = false :=
    Bool.eq_false_iff.mpr fun hthere => hclient (hrecalls.connected.mp hthere)
  cases order with
  | schedule definition =>
    obtain ⟨labels, hlabels⟩ := hneeds
    obtain ⟨inner, hstart, -⟩ := Adapter.schedule_tells h hlabels hrecalls.isCoherent
    obtain ⟨first, reached, rest, hprepare, rfl⟩ := hstart.prepares
    -- a network cannot be ready without a client, so making sure of it asks for one
    have hready : adapter.networkReady = false := Bool.eq_false_iff.mpr fun hthere =>
      Bool.false_ne_true (hnone.symm.trans (hrecalls.isCoherent hthere))
    obtain ⟨answer, more, rfl⟩ := hprepare.asks hready hnone
    exact ⟨answer, more ++ rest, rfl⟩
  | unschedule name =>
    obtain ⟨inner, hremove, -⟩ := Adapter.unschedule_tells h
    exact hremove.asks hnone
  | report =>
    obtain ⟨reported, hreports, -⟩ := report_tells h
    obtain ⟨inner, hlist, -⟩ := Adapter.reports_tells hreports
    exact hlist.asks hnone

/-- **Whoever schedules looks for the network** with the client that is there, until it was there
once. -/
theorem Order.searches (hrecalls : Recalls given network past adapter)
    (hthere : ¬HasNetwork network past) {definition : Definition} {labels : Named String}
    (hlabels : Adapter.labels? definition.name = .ok labels)
    (h : (Order.schedule definition).inAdapter.Tells adapter said result after)
    (hclient : HasClient given (past ++ said)) :
    ∃ answer, ⟨.findNetwork network, answer⟩ ∈ said := by
  have hconnected : after.connected = true := (Order.goes hrecalls h).recalls.connected.mpr hclient
  have hready : adapter.networkReady = false :=
    Bool.eq_false_iff.mpr fun hknown => hthere (hrecalls.networkReady.mp hknown)
  obtain ⟨inner, hstart, -⟩ := Adapter.schedule_tells h hlabels hrecalls.isCoherent
  obtain ⟨first, reached, rest, hprepare, rfl⟩ := hstart.prepares
  obtain ⟨answer, hmem⟩ := hprepare.searches hready hconnected
  rw [hrecalls.configured] at hmem
  exact ⟨answer, List.mem_append_left _ hmem⟩

/-! ### Whole sessions -/

variable {σ : Type} {handle : Plan.Handler Daemon.Service σ} {orders : List Order} {state : σ}
  {before later : List Turn} {turn : Turn}

/-- **Each turn starts with an adapter that knows what was said before**, and is one of the
orders. -/
theorem recalls_of_turns (hrecalls : Recalls given network past adapter)
    (hturns : turns handle orders adapter state = before ++ turn :: later) :
    turn.order ∈ orders ∧ ∃ adapter after,
      Recalls given network (past ++ spoken before) adapter ∧
        turn.order.inAdapter.Tells adapter turn.said turn.result after := by
  induction orders generalizing past adapter state before with
  | nil => exact absurd hturns.symm (List.append_ne_nil_of_right_ne_nil _ (List.cons_ne_nil _ _))
  | cons order rest ih =>
    have htells := Adapter.Act.tells_perform handle order.inAdapter adapter state
    cases before with
    | nil =>
      obtain ⟨rfl, -⟩ := List.cons_eq_cons.mp hturns
      refine ⟨List.mem_cons_self, adapter, _, ?_, htells⟩
      rw [spoken, List.flatMap_nil, List.append_nil]
      exact hrecalls
    | cons first others =>
      obtain ⟨rfl, hrest⟩ := List.cons_eq_cons.mp hturns
      -- an orderly turn leaves an adapter that knows what was said in it
      obtain ⟨hmem, found⟩ := ih (Order.goes hrecalls htells).recalls hrest
      rw [List.append_assoc] at found
      exact ⟨List.mem_cons_of_mem _ hmem, found⟩

/-- What was said at a point was said in some turn. -/
theorem exists_turn_of_spoken {turns : List Turn} {earlier rest : Talk}
    {exchange : Exchange Daemon.Service} (h : spoken turns = earlier ++ exchange :: rest) :
    ∃ before turn later first more, turns = before ++ turn :: later ∧
      turn.said = first ++ exchange :: more ∧ earlier = spoken before ++ first := by
  induction turns generalizing earlier with
  | nil => exact absurd h.symm (List.append_ne_nil_of_right_ne_nil _ (List.cons_ne_nil _ _))
  | cons turn others ih =>
    -- the exchange lies in a later turn
    have hlater {between : Talk} (hsame : earlier = turn.said ++ between)
        (hothers : spoken others = between ++ exchange :: rest) :
        ∃ before found later first more, turn :: others = before ++ found :: later ∧
          found.said = first ++ exchange :: more ∧ earlier = spoken before ++ first := by
      obtain ⟨before, found, later, first, more, rfl, hfound, rfl⟩ := ih hothers
      refine ⟨turn :: before, found, later, first, more, rfl, hfound, ?_⟩
      rw [hsame, ← List.append_assoc]
      rfl
    -- it lies beyond the first turn or within it, and at its very end it lies beyond it
    rcases List.append_eq_append_iff.mp h with
      ⟨between, hearlier, hothers⟩ | ⟨between, hsaid, hrest⟩
    · exact hlater hearlier hothers
    · cases between with
      | nil =>
        rw [List.append_nil] at hsaid
        have hends : earlier = turn.said ++ [] := hsaid.symm.trans (List.append_nil _).symm
        exact hlater hends hrest.symm
      | cons found more =>
        obtain ⟨rfl, -⟩ := List.cons_eq_cons.mp hrest
        exact ⟨[], turn, others, earlier, more, rfl, hsaid, rfl⟩

/-- All that is said in turns to a daemon that fails as daemons do is in kind. -/
theorem inKind_of_turns {sound : σ → Prop} (hdaemon : Daemon.FailsInKind handle sound)
    (hsound : sound state) (hmem : turn ∈ turns handle orders adapter state) :
    ∀ exchange ∈ turn.said, InKind exchange := by
  induction orders generalizing adapter state with
  | nil => cases hmem
  | cons order rest ih =>
    obtain ⟨hsaid, hend⟩ := hdaemon.conversation hsound (order.inAdapter.run.run adapter)
    rcases List.mem_cons.mp hmem with rfl | hmem
    · exact hsaid
    · exact ih hend hmem

/-- The discipline of a session: what an adapter of the network may say, whatever comes back.
`given` tells whether a client was given to it. -/
structure Disciplined (given : Bool) (network : Value) (turns : List Turn) : Prop where
  /-- Nothing but rejections comes out. -/
  rejects : ∀ turn ∈ turns, ∀ failure, turn.result = .error failure → failure.kind = .rejection
  /-- A client is asked for only while there is none. -/
  client : ∀ earlier answer rest, spoken turns = earlier ++ ⟨.connect, answer⟩ :: rest →
    ¬HasClient given earlier
  /-- A client is taken on once at most. -/
  once : ∀ earlier rest, spoken turns = earlier ++ ⟨.connect, .ok ()⟩ :: rest →
    given = false ∧ ⟨.connect, .ok ()⟩ ∉ earlier ∧ ⟨.connect, .ok ()⟩ ∉ rest
  /-- As long as there is none, whoever needs one asks for it first. -/
  asks : ∀ before turn later, turns = before ++ turn :: later →
    ¬HasClient given (spoken before) → turn.order.NeedsClient →
    ∃ answer rest, turn.said = ⟨.connect, answer⟩ :: rest
  /-- A container is started only after the network was there, and joins it. -/
  run : ∀ earlier spec answer rest, spoken turns = earlier ++ ⟨.run spec, answer⟩ :: rest →
    HasNetwork network earlier ∧ spec.network = network
  /-- Nothing is said of the network once it was there, and never of another one. -/
  quiet : ∀ earlier request answer rest name, spoken turns = earlier ++ ⟨request, answer⟩ :: rest →
    request = .findNetwork name ∨ request = .makeNetwork name →
    ¬HasNetwork network earlier ∧ name = network
  /-- Until it was there, each job whose name passes the checks has it looked for if there is a
  client to do so. -/
  searches : ∀ before turn later definition labels, turns = before ++ turn :: later →
    turn.order = .schedule definition → Adapter.labels? definition.name = .ok labels →
    ¬HasNetwork network (spoken before) → HasClient given (spoken before ++ turn.said) →
    ∃ answer, ⟨.findNetwork network, answer⟩ ∈ turn.said
  /-- Nothing is said for a job whose name fails the checks. -/
  silent : ∀ turn ∈ turns, ∀ definition failure, turn.order = .schedule definition →
    Adapter.labels? definition.name = .error failure →
    turn.said = [] ∧ turn.result = .error failure
  /-- The network is made only right after it was said to be missing, in the same turn. -/
  makes : ∀ turn ∈ turns, ∀ earlier name answer rest,
    turn.said = earlier ++ ⟨.makeNetwork name, answer⟩ :: rest →
    ∃ front cause, earlier = front ++ [⟨.findNetwork name, .error cause⟩] ∧
      cause.kind = .daemonMissing

/-- An adapter that was made knows that nothing was said. -/
theorem recalls_make (given : Bool) (network : Value) (settings : Settings) :
    Recalls given (Adapter.make given network settings).network []
      (Adapter.make given network settings) where
  configured := rfl
  connected := (or_iff_left List.not_mem_nil).symm
  networkReady := iff_of_false nofun (not_or.mpr ⟨List.not_mem_nil, List.not_mem_nil⟩)
  coherent hthere := absurd hthere (not_or.mpr ⟨List.not_mem_nil, List.not_mem_nil⟩)

/-- **What is said in turns may be said when it is.** By induction on the orders: the past of an
exchange is made of the turns before it and of what its own turn has said. -/
theorem admits_of_spoken (hrecalls : Recalls given network [] adapter) {earlier rest : Talk}
    {exchange : Exchange Daemon.Service}
    (h : spoken (turns handle orders adapter state) = earlier ++ exchange :: rest) :
    ∃ past first, earlier = past ++ first ∧ Adapter.Admits given network past first exchange := by
  obtain ⟨before, turn, later, first, more, hturns, hsaid, rfl⟩ := exists_turn_of_spoken h
  obtain ⟨-, found, after, hfound, htells⟩ := recalls_of_turns hrecalls hturns
  exact ⟨spoken before, first, rfl, (Order.goes hfound htells).orderly first exchange more hsaid⟩

/-- **Every session with the daemon is disciplined.** -/
theorem turns_disciplined {sound : σ → Prop} (hdaemon : Daemon.FailsInKind handle sound)
    (hsound : sound state) (given : Bool) (network : Value) (settings : Settings)
    (hnetwork : ∃ text, (Adapter.make given network settings).network = .text text)
    (hready : ∀ order ∈ orders, order.IsReady) :
    Disciplined given (Adapter.make given network settings).network
      (turns handle orders (Adapter.make given network settings) state) := by
  have hstart := recalls_make given network settings
  have hclient : ∀ earlier answer rest,
      spoken (turns handle orders (Adapter.make given network settings) state) =
        earlier ++ ⟨.connect, answer⟩ :: rest → ¬HasClient given earlier := by
    intro earlier answer rest hspoken
    obtain ⟨past, first, rfl, hadmits⟩ := admits_of_spoken hstart hspoken
    exact hadmits
  constructor
  case rejects =>
    intro turn hmem failure hfailure
    obtain ⟨before, later, hturns⟩ := List.append_of_mem hmem
    obtain ⟨horder, adapter, after, hrecalls, htells⟩ := recalls_of_turns hstart hturns
    rw [hfailure] at htells
    exact Order.rejects hrecalls hnetwork (hready _ horder) htells
      (inKind_of_turns hdaemon hsound hmem)
  case client => exact hclient
  case once =>
    intro earlier rest hspoken
    have hnone := not_or.mp (hclient earlier (.ok ()) rest hspoken)
    refine ⟨Bool.eq_false_iff.mpr hnone.1, hnone.2, fun hagain => ?_⟩
    -- a client that is taken on again would have been asked for with one there
    obtain ⟨between, last, rfl⟩ := List.append_of_mem hagain
    refine hclient (earlier ++ ⟨.connect, .ok ()⟩ :: between) (.ok ()) last ?_ (.inr ?_)
    · rw [hspoken, List.append_assoc, List.cons_append]
    · exact List.mem_append_right _ List.mem_cons_self
  case asks =>
    intro before turn later hturns hnone hneeds
    obtain ⟨-, adapter, after, hrecalls, htells⟩ := recalls_of_turns hstart hturns
    exact Order.asks hrecalls hnone hneeds htells
  case run =>
    intro earlier spec answer rest hspoken
    obtain ⟨past, first, rfl, hjoins, hthere⟩ := admits_of_spoken hstart hspoken
    exact ⟨hthere, hjoins⟩
  case quiet =>
    intro earlier request answer rest name hspoken hrequest
    obtain ⟨past, first, rfl, hadmits⟩ := admits_of_spoken hstart hspoken
    rcases hrequest with rfl | rfl
    · exact ⟨hadmits.2.1, hadmits.1⟩
    · exact ⟨hadmits.2.1, hadmits.1⟩
  case searches =>
    intro before turn later definition labels hturns horder hlabels hthere hhas
    obtain ⟨-, adapter, after, hrecalls, htells⟩ := recalls_of_turns hstart hturns
    rw [horder] at htells
    exact Order.searches hrecalls hthere hlabels htells hhas
  case silent =>
    intro turn hmem definition failure horder hlabels
    obtain ⟨before, later, hturns⟩ := List.append_of_mem hmem
    obtain ⟨-, adapter, after, -, htells⟩ := recalls_of_turns hstart hturns
    rw [horder] at htells
    obtain ⟨hsaid, hresult, -⟩ := Adapter.schedule_tells_of_labels?_eq_error htells hlabels
    exact ⟨hsaid, hresult⟩
  case makes =>
    intro turn hmem earlier name answer rest hsaid
    obtain ⟨before, later, hturns⟩ := List.append_of_mem hmem
    obtain ⟨-, adapter, after, hrecalls, htells⟩ := recalls_of_turns hstart hturns
    exact ((Order.goes hrecalls htells).orderly earlier _ rest hsaid).2.2

end Turns

end Cluster

/-! ### Daemons of this library -/

/-- A daemon that says something about itself, and whose containers are labelled. Where either is
missing the adapter fails in a way of its own, which is no rejection. -/
structure Daemon.IsLabelled (daemon : Daemon) : Prop where
  info : ∃ entries, daemon.info = .dict entries
  labels : ∀ container ∈ daemon.containers, ∃ entries, container.labels = .dict entries

/-- What a labelled daemon answers is in kind, and it stays labelled. -/
theorem Daemon.IsLabelled.answer {daemon : Daemon} (h : daemon.IsLabelled) (request : Call) :
    Adapter.InKind ⟨request, (Daemon.answer request daemon).1⟩ ∧
      (Daemon.answer request daemon).2.IsLabelled := by
  -- what is missing is missed as a daemon misses it
  have hfind {text : String} {failure : Failure}
      (hfailure : daemon.find (.text text) (missing (.text text)) = .error failure) :
      failure.kind.isDaemon = true := by
    rw [find_text] at hfailure
    split at hfailure
    · cases hfailure
    · exact Except.error.inj hfailure ▸ rfl
  cases request with
  | connect => exact ⟨Adapter.failsInKind_ok (), h⟩
  | findNetwork name =>
    refine ⟨fun hname failure hfailure => ?_, h⟩
    obtain ⟨text, rfl⟩ := hname
    change daemon.findNetwork (.text text) = _ at hfailure
    rw [findNetwork] at hfailure
    split at hfailure
    · cases hfailure
    · exact Except.error.inj hfailure ▸ rfl
  | makeNetwork name => exact ⟨fun _ => Adapter.failsInKind_ok (), h.info, h.labels⟩
  | run spec =>
    rw [Daemon.answer, start]
    split
    · refine ⟨fun failure hfailure => ?_, h⟩
      obtain rfl := Except.error.inj hfailure
      rfl
    · -- the new container has the labels that it was started with
      refine ⟨Adapter.failsInKind_ok (), h.info, fun container hmem => ?_⟩
      rcases List.mem_append.mp hmem with hmem | hmem
      · exact h.labels container hmem
      · obtain rfl := List.mem_singleton.mp hmem
        exact ⟨_, rfl⟩
  | find name =>
    refine ⟨fun hname failure hfailure => ?_, h⟩
    obtain ⟨text, rfl⟩ := hname
    exact hfind hfailure
  | remove name =>
    refine ⟨fun _ => Adapter.failsInKind_ok (), h.info, fun container hmem => ?_⟩
    exact h.labels container (List.mem_of_mem_filter hmem)
  | info =>
    refine ⟨⟨Adapter.failsInKind_ok daemon.info, fun given hgiven => ?_⟩, h⟩
    obtain ⟨entries, hinfo⟩ := h.info
    exact ⟨entries, (Except.ok.inj hgiven).symm.trans hinfo⟩
  | list =>
    refine ⟨⟨Adapter.failsInKind_ok daemon.containers, fun containers hgiven => ?_⟩, h⟩
    exact Except.ok.inj hgiven ▸ h.labels

/-- What fails in the place of a call to the daemon fails as daemons do. Faults of a cancellation
alone are not restricted. -/
def World.FaultsInKind (world : World) : Prop :=
  ∀ fault ∈ world.faults, ∀ failure, fault.failure = some failure → failure.kind.isDaemon = true

/-- **The daemon of a world fails as daemons do**, with any faults of such kinds. It is the handler
with which sessions are run, so the discipline holds of them. -/
theorem World.failsInKind_daemonAnswer :
    Daemon.FailsInKind World.daemonAnswer
      fun world => world.FaultsInKind ∧ world.daemon.IsLabelled := by
  have heach (request : Daemon.Call) (world : World)
      (hsound : world.FaultsInKind ∧ world.daemon.IsLabelled) :
      Adapter.InKind ⟨request, (World.daemonAnswer request world).1⟩ ∧
        (World.daemonAnswer request world).2.FaultsInKind ∧
          (World.daemonAnswer request world).2.daemon.IsLabelled := by
    obtain ⟨hfaults, hlabelled⟩ := hsound
    have hleft : (attend (.daemon request) world).2.FaultsInKind := by
      intro fault hmem failure hfailure
      obtain ⟨earlier, hearlier, hstems⟩ := Fault.exists_stemsFrom_of_mem_fire hmem
      exact hfaults earlier hearlier failure (hstems.failure ▸ hfailure)
    rw [daemonAnswer, recorded]
    cases hmet : attend (.daemon request) world with
    | mk met after =>
      rw [hmet] at hleft
      have hdaemon : after.daemon = world.daemon := congrArg (·.2.daemon) hmet.symm
      cases met with
      | some failure =>
        -- a fault that fired was there
        obtain ⟨fault, hfired, hfailure⟩ := Option.bind_eq_some_iff.mp (congrArg Prod.fst hmet)
        have hkind := hfaults fault (Fault.mem_of_fire hfired).1 failure hfailure
        exact ⟨Adapter.inKind_error hkind, hleft, hdaemon ▸ hlabelled⟩
      | none =>
        obtain ⟨hanswer, hstays⟩ := (hdaemon ▸ hlabelled : after.daemon.IsLabelled).answer request
        exact ⟨hanswer, hleft, hstays⟩
  exact ⟨fun request world hsound => (heach request world hsound).2,
    fun request world hsound => (heach request world hsound).1⟩

namespace Cluster

/-- A daemon that cannot be reached at first, refuses to make the network, and then to start a
container. -/
def reluctant : World where
  scheduler := .memory ⟨"memory-0", []⟩
  daemon := ⟨[], [], .dict []⟩
  files := []
  site := ⟨["tmp"], .text "state.db", 1700000000⟩
  faults :=
    [⟨.daemonConnect, none, 1, some (.reported .daemon "no daemon"), false⟩,
      ⟨.daemonMakeNetwork, none, 1, some (.reported .daemonRequest "no driver"), false⟩,
      ⟨.daemonRun, none, 1, some (.reported .daemonMissing "no image"), false⟩]
  history := []
  cancelled := none

/-- A job is scheduled until it runs, with a name that fails the checks before, and is removed. -/
def attempts : List Order :=
  [.schedule { webJob with name := "-web" }, .schedule webJob, .schedule webJob, .report,
    .schedule webJob, .schedule webJob, .unschedule "web.3.web.1", .unschedule "web.3.web.1"]

/-- The turns of these orders. -/
def attempted : List Turn :=
  turns World.daemonAnswer attempts (Adapter.make false (.text "relman") (.ofVariables []))
    reluctant

/-- **Each of the three troubles fails one turn**, and what had worked is not asked for again. -/
theorem attempts_disciplined :
    attempted.map (fun turn =>
        (turn.said.map fun exchange => (Request.daemon exchange.request).point,
          turn.result.toOption.isSome)) =
      [([], false), ([.daemonConnect], false),
        ([.daemonConnect, .daemonFindNetwork, .daemonMakeNetwork], false),
        ([.daemonInfo, .daemonList], true),
        ([.daemonFindNetwork, .daemonMakeNetwork, .daemonRun], false), ([.daemonRun], true),
        ([.daemonFind, .daemonRemove], true), ([.daemonFind], false)] ∧
      Disciplined false (.text "relman") attempted := by
  have hready : Adapter.IsReady webJob := ⟨⟨_, _, rfl⟩, ⟨_, rfl⟩⟩
  have hfaults : reluctant.FaultsInKind := by
    intro fault hmem failure hfailure
    have hmem : fault ∈ reluctant.faults := hmem
    simp only [reluctant, List.mem_cons, List.not_mem_nil, or_false] at hmem
    rcases hmem with rfl | rfl | rfl <;> obtain rfl := Option.some.inj hfailure <;> rfl
  have hlabelled : reluctant.daemon.IsLabelled := ⟨⟨_, rfl⟩, fun _ hmem => nomatch hmem⟩
  refine ⟨by decide +kernel, turns_disciplined World.failsInKind_daemonAnswer ⟨hfaults, hlabelled⟩
    false (.text "relman") (.ofVariables []) ⟨"relman", rfl⟩ ?_⟩
  intro order hmem
  simp only [attempts, List.mem_cons, List.not_mem_nil, or_false] at hmem
  rcases hmem with rfl | rfl | rfl | rfl | rfl | rfl | rfl | rfl
  · exact ⟨hready.image, hready.environment⟩
  all_goals first | exact hready | trivial

end Cluster

end Rollout
