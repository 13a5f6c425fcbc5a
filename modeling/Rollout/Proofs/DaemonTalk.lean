import Rollout.Proofs.Containers
import Rollout.Proofs.Conversations

/-!
# Talking to the container daemon

What the adapter says to the daemon, for all answers that may come. `Adapter.Act.Tells` is the
relation: work that is started on an adapter says this, ends so, and leaves the adapter so. Nothing
is assumed of the daemon, so every call may fail in every way.

Each function has one lemma that lists its conversations:

* `Adapter.connect_tells`: with a client nothing is said, without one it is asked for once;
* `Adapter.ensureNetwork_tells`: nothing is said once the network is there, else it is looked for,
  and made only if it was said to be missing;
* `Adapter.start_tells`, `Adapter.unschedule_tells` and `Adapter.reports_tells`: the container calls
  come after these.
-/

namespace Rollout

namespace Adapter

/-- What was said to the daemon, and what came back. -/
abbrev Talk := List (Exchange Daemon.Service)

/-! ### Conversations of work -/

namespace Act

variable {α β : Type} {act : Act α} {next : α → Act β} {adapter after : Adapter} {said : Talk}

/-- Work that is started on an adapter may say this, end so, and leave the adapter so. The answers
are those of the conversation, and any answers will do: nothing is assumed of the daemon. -/
def Tells (act : Act α) (adapter : Adapter) (said : Talk) (result : Except Failure α)
    (after : Adapter) : Prop :=
  Plan.Leads (act.run.run adapter) said (.done (result, after))

/-- **Work that is performed** tells its conversation. What is proved of all that work may tell is
thereby proved of it with any daemon. -/
theorem tells_perform {σ : Type} (handle : Plan.Handler Daemon.Service σ) (act : Act α)
    (adapter : Adapter) (state : σ) :
    act.Tells adapter ((act.run.run adapter).conversation handle state)
      (act.perform handle adapter state).1 (act.perform handle adapter state).2.1 :=
  Plan.leads_conversation handle (act.run.run adapter) state

/-- **Work in two steps** tells what both steps tell, or what a first one that failed tells. The
second step begins with the adapter that the first one left. -/
theorem Tells.bind_cases {result : Except Failure β}
    (h : (act >>= next).Tells adapter said result after) :
    (∃ value middle first second, act.Tells adapter first (.ok value) middle ∧
      (next value).Tells middle second result after ∧ said = first ++ second) ∨
    ∃ failure, act.Tells adapter said (.error failure) after ∧ result = .error failure := by
  -- Under the exceptions the second step is a case distinction on what the first one came to.
  change Plan.Leads (act.run.run adapter >>= fun done =>
    (ExceptT.bindCont next done.1 : StateT Adapter (Plan Daemon.Service) _).run done.2) said _ at h
  obtain ⟨⟨value | value, middle⟩, first, second, hfirst, hsecond, rfl⟩ :=
    Plan.leads_bind_iff.mp h
  · obtain ⟨rfl, hend⟩ := Plan.leads_done_iff.mp hsecond
    obtain ⟨rfl, rfl⟩ := Prod.mk.inj hend
    rw [List.append_nil]
    exact .inr ⟨value, hfirst, rfl⟩
  · exact .inl ⟨value, middle, first, second, hfirst, hsecond, rfl⟩

/-- A call is all that is said. -/
theorem Tells.ask_cases {request : Daemon.Call} {result : request.Answer}
    (h : (ofPlan (ask request)).Tells adapter said result after) :
    said = [⟨request, result⟩] ∧ after = adapter := by
  obtain ⟨answer, rest, rfl, hrest⟩ := Plan.leads_call_iff.mp h
  obtain ⟨rfl, hend⟩ := Plan.leads_done_iff.mp hrest
  obtain ⟨rfl, rfl⟩ := Prod.mk.inj hend
  exact ⟨rfl, rfl⟩

theorem Tells.ofExcept_cases {given result : Except Failure α}
    (h : (ofExcept given).Tells adapter said result after) :
    said = [] ∧ result = given ∧ after = adapter := by
  obtain ⟨rfl, hend⟩ := Plan.leads_done_iff.mp h
  obtain ⟨rfl, rfl⟩ := Prod.mk.inj hend
  exact ⟨rfl, rfl, rfl⟩

theorem Tells.get_cases {result : Except Failure Adapter}
    (h : (get : Act Adapter).Tells adapter said result after) :
    said = [] ∧ result = .ok adapter ∧ after = adapter := by
  obtain ⟨rfl, hend⟩ := Plan.leads_done_iff.mp h
  obtain ⟨rfl, rfl⟩ := Prod.mk.inj hend
  exact ⟨rfl, rfl, rfl⟩

theorem Tells.modify_cases {f : Adapter → Adapter} {result : Except Failure Unit}
    (h : (modify f : Act Unit).Tells adapter said result after) :
    said = [] ∧ result = .ok () ∧ after = f adapter := by
  obtain ⟨rfl, hend⟩ := Plan.leads_done_iff.mp h
  obtain ⟨rfl, rfl⟩ := Prod.mk.inj hend
  exact ⟨rfl, rfl, rfl⟩

/-- Looking at the adapter first means to go on with it. -/
theorem Tells.get_bind {next : Adapter → Act β} {result : Except Failure β}
    (h : ((get : Act Adapter) >>= next).Tells adapter said result after) :
    (next adapter).Tells adapter said result after := by
  rcases h.bind_cases with ⟨value, middle, first, second, hget, hnext, rfl⟩ | ⟨failure, hget, -⟩
  · obtain ⟨rfl, hvalue, rfl⟩ := hget.get_cases
    obtain rfl := Except.ok.inj hvalue
    exact hnext
  · cases hget.get_cases.2.1

/-- A result that is there is gone on with. -/
theorem Tells.ofExcept_bind {value : α} {result : Except Failure β}
    (h : (ofExcept (.ok value) >>= next).Tells adapter said result after) :
    (next value).Tells adapter said result after := by
  rcases h.bind_cases with
    ⟨given, middle, first, second, hgiven, hnext, rfl⟩ | ⟨failure, hgiven, -⟩
  · obtain ⟨rfl, hvalue, rfl⟩ := hgiven.ofExcept_cases
    obtain rfl := Except.ok.inj hvalue
    exact hnext
  · cases hgiven.ofExcept_cases.2.1

/-- Nothing comes after a failure. -/
theorem Tells.error_bind {failure : Failure} {result : Except Failure β}
    (h : (ofExcept (.error failure) >>= next).Tells adapter said result after) :
    said = [] ∧ result = .error failure ∧ after = adapter := by
  rcases h.bind_cases with ⟨value, _, _, _, hthrown, -, -⟩ | ⟨cause, hthrown, rfl⟩
  · cases hthrown.ofExcept_cases.2.1
  · obtain ⟨rfl, hsame, rfl⟩ := hthrown.ofExcept_cases
    exact ⟨rfl, congrArg _ (Except.error.inj hsame), rfl⟩

/-- Work whose failure is looked at says the same. -/
theorem Tells.attempt_bind {next : Except Failure α → Act β} {result : Except Failure β}
    (h : (act.attempt >>= next).Tells adapter said result after) :
    ∃ inner middle first second, act.Tells adapter first inner middle ∧
      (next inner).Tells middle second result after ∧ said = first ++ second := by
  -- looking at a failure says nothing, and succeeds
  have hattempt {inner : Except Failure (Except Failure α)} {first : Talk} {middle : Adapter}
      (hinner : act.attempt.Tells adapter first inner middle) :
      ∃ looked, act.Tells adapter first looked middle ∧ inner = .ok looked := by
    change Plan.Leads (act.run.run adapter >>= fun done =>
      (pure (Except.ok done.1, done.2) : Plan Daemon.Service _)) first _ at hinner
    obtain ⟨⟨looked, between⟩, spoken, rest, hspoken, hrest, rfl⟩ := Plan.leads_bind_iff.mp hinner
    obtain ⟨rfl, hend⟩ := Plan.leads_done_iff.mp hrest
    obtain ⟨rfl, rfl⟩ := Prod.mk.inj hend
    rw [List.append_nil]
    exact ⟨looked, hspoken, rfl⟩
  -- Looking at a failure cannot fail itself, so the second step is always reached.
  rcases h.bind_cases with ⟨value, middle, first, second, hfirst, hnext, rfl⟩ | ⟨failure, hfirst, -⟩
  · obtain ⟨looked, hlooked, hvalue⟩ := hattempt hfirst
    obtain rfl := Except.ok.inj hvalue
    exact ⟨value, middle, first, second, hlooked, hnext, rfl⟩
  · obtain ⟨looked, -, hlooked⟩ := hattempt hfirst
    cases hlooked

/-- What becomes of a failure: one of the daemon is turned into a rejection, and any other passes as
it is. A rejection by the adapter itself is such another one. -/
def turned (rejection : Failure → Failure) (failure : Failure) : Failure :=
  if failure.kind.isDaemon then rejection failure else failure

/-- A failure of the daemon does not get past a rejection. -/
theorem kind_turned_ne {rejection : Failure → Failure}
    (h : ∀ failure, (rejection failure).kind.isDaemon = false) (failure : Failure) :
    (turned rejection failure).kind.isDaemon = false := by
  rw [turned]
  split
  · exact h failure
  · next hother => exact Bool.eq_false_iff.mpr hother

/-- **Only the failure of work is turned**, not what it says. The conversation is that of the work
inside, and the adapter is left as the work leaves it. -/
theorem Tells.rejecting_cases {rejection : Failure → Failure} {result : Except Failure α}
    (h : (rejecting rejection act).Tells adapter said result after) :
    ∃ inner, act.Tells adapter said inner after ∧ result = inner.mapError (turned rejection) := by
  rw [rejecting] at h
  obtain ⟨inner, middle, first, second, hfirst, hrest, rfl⟩ := h.attempt_bind
  -- both ways to go on are a result that is known by then
  have hturned : (ofExcept (inner.mapError (turned rejection)) : Act α).Tells middle second result
      after := by
    cases inner with
    | ok value => exact hrest
    | error failure =>
      rw [Except.mapError, turned]
      split
      · next hkind =>
        simp only [hkind, if_true] at hrest
        exact hrest
      · next hother =>
        simp only [hother] at hrest
        exact hrest
  obtain ⟨rfl, rfl, rfl⟩ := hturned.ofExcept_cases
  rw [List.append_nil]
  exact ⟨inner, hfirst, rfl⟩

end Act

/-! ### Conversations of the functions of the adapter -/

variable {adapter after : Adapter} {said : Talk} {result : Except Failure Unit}

/-- The failure of a client that is not to be had. -/
def unavailable : Failure → Failure :=
  Act.turned fun failure => .rejected (.unavailable failure.message)

/-- Taking a client on. Once there is a client nothing is said any more, and a client that was
refused is asked for again at the next occasion. -/
inductive Connects (adapter : Adapter) : Talk → Except Failure Unit → Adapter → Prop where
  /-- There is a client. -/
  | there (hclient : adapter.connected = true) : Connects adapter [] (.ok ()) adapter
  /-- There was none, and now there is one. -/
  | taken (hclient : adapter.connected = false) :
      Connects adapter [⟨.connect, .ok ()⟩] (.ok ()) { adapter with connected := true }
  /-- There was none, and none was to be had. -/
  | refused (hclient : adapter.connected = false) (cause : Failure) :
      Connects adapter [⟨.connect, .error cause⟩] (.error (unavailable cause)) adapter

/-- **The client is asked for if there is none**, and that is all. Only a client that was given is
remembered, so a failure leaves everything to be tried again. -/
theorem connect_tells (h : connect.Tells adapter said result after) :
    Connects adapter said result after := by
  rw [connect] at h
  have h := h.get_bind
  cases hclient : adapter.connected with
  | true =>
    -- nothing is said if there is a client
    simp only [hclient, if_true] at h
    obtain ⟨rfl, hend⟩ := Plan.leads_done_iff.mp h
    obtain ⟨rfl, rfl⟩ := Prod.mk.inj hend
    exact .there hclient
  | false =>
    simp only [hclient, Bool.false_eq_true, if_false] at h
    rcases h.bind_cases with ⟨_, middle, first, second, hasked, hset, rfl⟩ | ⟨failure, hasked, rfl⟩
    · -- asked for and given: the adapter keeps it
      obtain ⟨inner, hcall, hturned⟩ := hasked.rejecting_cases
      obtain ⟨rfl, rfl⟩ := hcall.ask_cases
      obtain ⟨rfl, rfl, rfl⟩ := hset.modify_cases
      cases inner with
      | ok _ => exact .taken hclient
      | error _ => cases hturned
    · -- refused: the adapter is left as it was
      obtain ⟨inner, hcall, hturned⟩ := hasked.rejecting_cases
      obtain ⟨rfl, rfl⟩ := hcall.ask_cases
      cases inner with
      | ok _ => cases hturned
      | error cause =>
        rw [hturned]
        exact .refused hclient cause

theorem Connects.connected (h : Connects adapter said (.ok ()) after) : after.connected = true := by
  cases h with
  | there hclient => exact hclient
  | taken _ => rfl

/-- What failed to give a client is no network that is missing. -/
theorem Connects.kind_ne_missing {failure : Failure}
    (h : Connects adapter said (.error failure) after) : failure.kind ≠ .daemonMissing := by
  cases h with
  | refused _ cause =>
    intro hmissing
    have hturned : (unavailable cause).kind.isDaemon = false :=
      Act.kind_turned_ne (fun _ => rfl) cause
    rw [hmissing] at hturned
    cases hturned

theorem Connects.connected_eq_false {failure : Failure}
    (h : Connects adapter said (.error failure) after) : after.connected = false := by
  cases h with
  | refused hclient _ => exact hclient

theorem Connects.asks (h : Connects adapter said result after)
    (hclient : adapter.connected = false) : ∃ answer, said = [⟨.connect, answer⟩] := by
  cases h with
  | there hthere => exact absurd (hthere.symm.trans hclient) nofun
  | taken _ => exact ⟨_, rfl⟩
  | refused _ cause => exact ⟨_, rfl⟩

theorem Connects.of_connected (h : Connects adapter said result after)
    (hclient : adapter.connected = true) : said = [] ∧ result = .ok () ∧ after = adapter := by
  cases h with
  | there _ => exact ⟨rfl, rfl, rfl⟩
  | taken hnone | refused hnone _ => exact absurd (hclient.symm.trans hnone) nofun

/-- Making sure that the network is there. It is looked for as long as it has not been there once,
and it is made only if the daemon says that it is missing; any other failure to find it is passed
on. -/
inductive Prepares (adapter : Adapter) : Talk → Except Failure Unit → Adapter → Prop where
  /-- The network is known to be there. -/
  | there (hready : adapter.networkReady = true) : Prepares adapter [] (.ok ()) adapter
  /-- There is no client to look for it. -/
  | unconnected {said : Talk} {failure : Failure} {after : Adapter}
      (hready : adapter.networkReady = false)
      (hconnect : Connects adapter said (.error failure) after) :
      Prepares adapter said (.error failure) after
  /-- It was found. -/
  | found {first : Talk} {middle : Adapter} (hready : adapter.networkReady = false)
      (hconnect : Connects adapter first (.ok ()) middle) :
      Prepares adapter (first ++ [⟨.findNetwork adapter.network, .ok ()⟩]) (.ok ())
        { middle with networkReady := true }
  /-- Looking for it failed, but it was not said to be missing. -/
  | unsearched {first : Talk} {middle : Adapter} (hready : adapter.networkReady = false)
      (hconnect : Connects adapter first (.ok ()) middle) (cause : Failure)
      (hcause : cause.kind ≠ .daemonMissing) :
      Prepares adapter (first ++ [⟨.findNetwork adapter.network, .error cause⟩]) (.error cause)
        middle
  /-- It was missing, and it was made. -/
  | made {first : Talk} {middle : Adapter} (hready : adapter.networkReady = false)
      (hconnect : Connects adapter first (.ok ()) middle) (cause : Failure)
      (hcause : cause.kind = .daemonMissing) :
      Prepares adapter (first ++ [⟨.findNetwork adapter.network, .error cause⟩,
        ⟨.makeNetwork adapter.network, .ok ()⟩]) (.ok ()) { middle with networkReady := true }
  /-- It was missing, and making it failed. -/
  | unmade {first : Talk} {middle : Adapter} (hready : adapter.networkReady = false)
      (hconnect : Connects adapter first (.ok ()) middle) (cause : Failure)
      (hcause : cause.kind = .daemonMissing) (failure : Failure) :
      Prepares adapter (first ++ [⟨.findNetwork adapter.network, .error cause⟩,
        ⟨.makeNetwork adapter.network, .error failure⟩]) (.error failure) middle

/-- **The network is looked for until it was there once**, and made if it is missing. Missing is
only what the daemon says it does not find; any other failure ends the work. -/
theorem ensureNetwork_tells (h : ensureNetwork.Tells adapter said result after) :
    Prepares adapter said result after := by
  rw [ensureNetwork] at h
  have h := h.get_bind
  cases hready : adapter.networkReady with
  | true =>
    simp only [hready, if_true] at h
    obtain ⟨rfl, hend⟩ := Plan.leads_done_iff.mp h
    obtain ⟨rfl, rfl⟩ := Prod.mk.inj hend
    exact .there hready
  | false =>
    simp only [hready, Bool.false_eq_true, if_false] at h
    -- Looking for the network is watched for its failure, which decides whether the network is
    -- made.
    obtain ⟨looked, middle, first, second, hlooked, hrest, rfl⟩ := h.get_bind.attempt_bind
    rcases hlooked.bind_cases with
      ⟨_, joined, start, asked, hconnect, hfind, rfl⟩ | ⟨failure, hconnect, rfl⟩
    · have hconnect := connect_tells hconnect
      obtain ⟨rfl, rfl⟩ := hfind.ask_cases
      cases looked with
      | ok value =>
        obtain ⟨rfl, rfl, rfl⟩ := Act.Tells.modify_cases hrest
        rw [List.append_nil]
        exact .found hready hconnect
      | error cause =>
        by_cases hcause : cause.kind = .daemonMissing
        · -- only a network that is missing is made, with the client that is there by now
          simp only [hcause, if_true] at hrest
          rcases hrest.bind_cases with
            ⟨_, joined, again, later, hagain, hmake, rfl⟩ | ⟨_, hagain, -⟩
          · obtain ⟨rfl, -, rfl⟩ := (connect_tells hagain).of_connected hconnect.connected
            rcases hmake.bind_cases with
              ⟨_, kept, call, rest, hcall, hset, rfl⟩ | ⟨failure, hcall, rfl⟩
            · obtain ⟨rfl, rfl⟩ := hcall.ask_cases
              obtain ⟨rfl, rfl, rfl⟩ := hset.modify_cases
              rw [List.append_assoc]
              exact .made hready hconnect cause hcause
            · obtain ⟨rfl, rfl⟩ := hcall.ask_cases
              rw [List.append_assoc]
              exact .unmade hready hconnect cause hcause failure
          · cases ((connect_tells hagain).of_connected hconnect.connected).2.1
        · simp only [hcause, if_false] at hrest
          obtain ⟨rfl, rfl, rfl⟩ := Act.Tells.error_bind hrest
          rw [List.append_nil]
          exact .unsearched hready hconnect cause hcause
    · have hconnect := connect_tells hconnect
      -- To have no client is not what a missing network looks like, so nothing is made.
      have hcause := hconnect.kind_ne_missing
      simp only [hcause, if_false] at hrest
      obtain ⟨rfl, rfl, rfl⟩ := Act.Tells.error_bind hrest
      rw [List.append_nil]
      exact .unconnected hready hconnect

/-- The network is known to be there only if there is a client, and it stays there. -/
theorem Prepares.prepared (h : Prepares adapter said (.ok ()) after)
    (hcoherent : adapter.networkReady = true → adapter.connected = true) :
    after.networkReady = true ∧ after.connected = true := by
  cases h with
  | there hready => exact ⟨hready, hcoherent hready⟩
  | found _ hconnect | made _ hconnect _ _ => exact ⟨rfl, hconnect.connected⟩

theorem Connects.network_eq (h : Connects adapter said result after) :
    after.network = adapter.network := by
  cases h <;> rfl

theorem Prepares.network_eq (h : Prepares adapter said result after) :
    after.network = adapter.network := by
  cases h with
  | there _ => rfl
  | unconnected _ hconnect => exact hconnect.network_eq
  | found _ hconnect | unsearched _ hconnect _ _ | made _ hconnect _ _ | unmade _ hconnect _ _ _ =>
    exact hconnect.network_eq

/-- Without a client one is asked for before the network. -/
theorem Prepares.asks (h : Prepares adapter said result after)
    (hready : adapter.networkReady = false) (hclient : adapter.connected = false) :
    ∃ answer rest, said = ⟨.connect, answer⟩ :: rest := by
  cases h with
  | there hthere => exact absurd (hthere.symm.trans hready) nofun
  | unconnected _ hconnect =>
    obtain ⟨answer, rfl⟩ := hconnect.asks hclient
    exact ⟨answer, [], rfl⟩
  | found _ hconnect | unsearched _ hconnect _ _ | made _ hconnect _ _
  | unmade _ hconnect _ _ _ =>
    obtain ⟨answer, rfl⟩ := hconnect.asks hclient
    exact ⟨answer, _, rfl⟩

/-- With a client the network is looked for, unless it is known to be there. -/
theorem Prepares.searches (h : Prepares adapter said result after)
    (hready : adapter.networkReady = false) (hclient : after.connected = true) :
    ∃ answer, ⟨.findNetwork adapter.network, answer⟩ ∈ said := by
  cases h with
  | there hthere => exact absurd (hthere.symm.trans hready) nofun
  | unconnected _ hconnect =>
    exact absurd (hclient.symm.trans hconnect.connected_eq_false) nofun
  | found _ _ | unsearched _ _ _ _ | made _ _ _ _ | unmade _ _ _ _ _ =>
    exact ⟨_, List.mem_append_right _ List.mem_cons_self⟩

/-- Starting a container. It comes to the daemon only after the network was made sure of and the
definition was found to be one that the adapter takes, in this order. -/
inductive Starts (adapter : Adapter) (definition : Definition) :
    Talk → Except Failure Unit → Adapter → Prop where
  /-- The network is not there for it. -/
  | unprepared {said : Talk} {failure : Failure} {after : Adapter}
      (hprepare : Prepares adapter said (.error failure) after) :
      Starts adapter definition said (.error failure) after
  /-- The definition is none that the adapter takes. -/
  | unready {said : Talk} {after : Adapter} (hprepare : Prepares adapter said (.ok ()) after)
      (hready : ¬IsReady definition) (failure : Failure) :
      Starts adapter definition said (.error failure) after
  /-- The container was asked for. -/
  | run {first : Talk} {after : Adapter} (hprepare : Prepares adapter first (.ok ()) after)
      (spec : ContainerSpec) (hnetwork : spec.network = adapter.network)
      (answer : Except Failure Unit) :
      Starts adapter definition (first ++ [⟨.run spec, answer⟩]) answer after

/-- The network is made sure of first, whatever comes of the container. -/
theorem Starts.prepares {definition : Definition}
    (h : Starts adapter definition said result after) :
    ∃ first reached rest, Prepares adapter first reached after ∧ said = first ++ rest := by
  cases h with
  | unprepared hprepare | unready hprepare _ _ =>
    exact ⟨said, _, [], hprepare, (List.append_nil said).symm⟩
  | run hprepare _ _ _ => exact ⟨_, _, _, hprepare, rfl⟩

/-- A definition that the adapter takes has a reference for its image, and an environment. -/
theorem IsReady.exists_values {definition : Definition} (h : IsReady definition) :
    ∃ reference environment, definition.image.reference? = .ok reference ∧
      definition.environment.toDictionary = .ok environment := by
  obtain ⟨repo, id, himage⟩ := h.image
  obtain ⟨entries, henvironment⟩ := h.environment
  refine ⟨Image.reference repo id, .dict entries, ?_, ?_⟩
  · rw [himage]
    rfl
  · rw [henvironment, Value.toDictionary_dict]

/-- **A container is asked for only after the network was made sure of.** An adapter that knows of
the network has a client, since it looked for the one with the other. -/
theorem start_tells {definition : Definition} {labels : Named String}
    (h : (start definition labels).Tells adapter said result after)
    (hcoherent : adapter.networkReady = true → adapter.connected = true) :
    Starts adapter definition said result after := by
  rw [start] at h
  rcases h.bind_cases with ⟨_, middle, first, second, hensure, hrest, rfl⟩ | ⟨failure, hensure, rfl⟩
  · -- the network is ready, and so the adapter is connected: it need not ask again
    have hprepare := ensureNetwork_tells hensure
    rcases hrest.bind_cases with ⟨_, joined, again, later, hagain, hrun, rfl⟩ | ⟨_, hagain, -⟩
    · obtain ⟨rfl, -, rfl⟩ :=
        (connect_tells hagain).of_connected (hprepare.prepared hcoherent).2
      rw [List.nil_append]
      cases himage : definition.image.reference? with
      | error failure =>
        rw [himage] at hrun
        obtain ⟨rfl, rfl, rfl⟩ := hrun.error_bind
        rw [List.append_nil]
        -- an image without a reference is found out before the daemon is asked for a container
        refine .unready hprepare (fun hready => ?_) failure
        obtain ⟨_, _, hvalue, -⟩ := hready.exists_values
        cases himage.symm.trans hvalue
      | ok image =>
        rw [himage] at hrun
        cases henvironment : definition.environment.toDictionary with
        | error failure =>
          -- so is an environment that cannot be told
          have hrun := hrun.ofExcept_bind
          rw [henvironment] at hrun
          obtain ⟨rfl, rfl, rfl⟩ := hrun.error_bind
          rw [List.append_nil]
          refine .unready hprepare (fun hready => ?_) failure
          obtain ⟨_, _, -, hvalue⟩ := hready.exists_values
          cases henvironment.symm.trans hvalue
        | ok environment =>
          have hrun := hrun.ofExcept_bind
          rw [henvironment] at hrun
          obtain ⟨rfl, rfl⟩ := hrun.ofExcept_bind.get_bind.ask_cases
          exact .run hprepare _ hprepare.network_eq _
    · -- a connected adapter cannot fail to connect
      cases ((connect_tells hagain).of_connected (hprepare.prepared hcoherent).2).2.1
  · exact .unprepared (ensureNetwork_tells hensure)

/-- A name that fails the checks is turned down before anything is said. -/
theorem schedule_tells_of_labels?_eq_error {definition : Definition} {failure : Failure}
    (h : (schedule definition).Tells adapter said result after)
    (hlabels : labels? definition.name = .error failure) :
    said = [] ∧ result = .error failure ∧ after = adapter := by
  rw [schedule, hlabels] at h
  exact h.error_bind

/-- **A job whose name passes the checks is started.** Failures of the daemon come out as rejections
that name the job. -/
theorem schedule_tells {definition : Definition} {labels : Named String}
    (h : (schedule definition).Tells adapter said result after)
    (hlabels : labels? definition.name = .ok labels)
    (hcoherent : adapter.networkReady = true → adapter.connected = true) :
    ∃ inner, Starts adapter definition said inner after ∧
      result = inner.mapError (Act.turned fun failure =>
        .rejected (.notScheduled definition.name failure.message)) := by
  rw [schedule, hlabels] at h
  obtain ⟨inner, hstart, hresult⟩ := h.ofExcept_bind.rejecting_cases
  exact ⟨inner, start_tells hstart hcoherent, hresult⟩

/-- Removing a container. There are two calls, one to find the container and one to remove it, and
either of them may fail. -/
inductive Removes (adapter : Adapter) (name : Value) :
    Talk → Except Failure Unit → Adapter → Prop where
  /-- There is no client to do it. -/
  | unconnected {said : Talk} {failure : Failure} {after : Adapter}
      (hconnect : Connects adapter said (.error failure) after) :
      Removes adapter name said (.error failure) after
  /-- Looking for the container failed. -/
  | missed {first : Talk} {after : Adapter} (hconnect : Connects adapter first (.ok ()) after)
      (cause : Failure) :
      Removes adapter name (first ++ [⟨.find name, .error cause⟩]) (.error cause) after
  /-- It was found, and asked to be removed. -/
  | asked {first : Talk} {after : Adapter} (hconnect : Connects adapter first (.ok ()) after)
      (answer : Except Failure Unit) :
      Removes adapter name (first ++ [⟨.find name, .ok ()⟩, ⟨.remove name, answer⟩]) answer after

/-- Without a client one is asked for before the container. -/
theorem Removes.asks {name : Value} (h : Removes adapter name said result after)
    (hclient : adapter.connected = false) : ∃ answer rest, said = ⟨.connect, answer⟩ :: rest := by
  cases h with
  | unconnected hconnect =>
    obtain ⟨answer, rfl⟩ := hconnect.asks hclient
    exact ⟨answer, [], rfl⟩
  | missed hconnect _ | asked hconnect _ =>
    obtain ⟨answer, rfl⟩ := hconnect.asks hclient
    exact ⟨answer, _, rfl⟩

/-- **A container is looked for and then removed.** -/
theorem unschedule_tells {name : Value} (h : (unschedule name).Tells adapter said result after) :
    ∃ inner, Removes adapter name said inner after ∧
      result = inner.mapError (Act.turned (removalFailure name)) := by
  obtain ⟨inner, hremove, hresult⟩ := h.rejecting_cases
  refine ⟨inner, ?_, hresult⟩
  -- Three steps, each of which may be the last one: the client, the search and the removal.
  rcases hremove.bind_cases with ⟨_, middle, first, rest, hconnect, hrest, rfl⟩ | ⟨_, hconnect, rfl⟩
  · have hconnect := connect_tells hconnect
    rcases hrest.bind_cases with ⟨_, found, look, last, hlook, hlast, rfl⟩ | ⟨cause, hlook, rfl⟩
    · obtain ⟨rfl, rfl⟩ := hlook.ask_cases
      obtain ⟨rfl, rfl⟩ := hlast.ask_cases
      exact .asked hconnect inner
    · obtain ⟨rfl, rfl⟩ := hlook.ask_cases
      exact .missed hconnect cause
  · exact .unconnected (connect_tells hconnect)

/-- Asking what runs. The daemon is asked about itself before it is asked for its containers, since
every report names the machine. -/
inductive Lists (adapter : Adapter) :
    Talk → Except Failure (Value × List Container) → Adapter → Prop where
  /-- There is no client to ask. -/
  | unconnected {said : Talk} {failure : Failure} {after : Adapter}
      (hconnect : Connects adapter said (.error failure) after) :
      Lists adapter said (.error failure) after
  /-- The daemon says nothing about itself. -/
  | unknown {first : Talk} {after : Adapter} (hconnect : Connects adapter first (.ok ()) after)
      (cause : Failure) : Lists adapter (first ++ [⟨.info, .error cause⟩]) (.error cause) after
  /-- What it says about itself is no dictionary. -/
  | unnamed {first : Talk} {after : Adapter} (hconnect : Connects adapter first (.ok ()) after)
      (given : Value) {cause : Failure}
      (hgiven : field "Name" (.text "unknown") given = .error cause) :
      Lists adapter (first ++ [⟨.info, .ok given⟩]) (.error cause) after
  /-- The containers are asked for. -/
  | asked {first : Talk} {after : Adapter} (hconnect : Connects adapter first (.ok ()) after)
      (given machine : Value) (hgiven : field "Name" (.text "unknown") given = .ok machine)
      (answer : Except Failure (List Container)) :
      Lists adapter (first ++ [⟨.info, .ok given⟩, ⟨.list, answer⟩]) (answer.map (machine, ·)) after

/-- Without a client one is asked for before anything is listed. -/
theorem Lists.asks {result : Except Failure (Value × List Container)}
    (h : Lists adapter said result after) (hclient : adapter.connected = false) :
    ∃ answer rest, said = ⟨.connect, answer⟩ :: rest := by
  cases h with
  | unconnected hconnect =>
    obtain ⟨answer, rfl⟩ := hconnect.asks hclient
    exact ⟨answer, [], rfl⟩
  | unknown hconnect _ | unnamed hconnect _ _ | asked hconnect _ _ _ _ =>
    obtain ⟨answer, rfl⟩ := hconnect.asks hclient
    exact ⟨answer, _, rfl⟩

/-- What is asked for a report, before it is made. -/
theorem gather_tells {result : Except Failure (Value × List Container)}
    (h : Act.Tells (do
      connect
      let info ← Act.ofPlan (Act.ask .info)
      let machine ← Act.ofExcept (field "Name" (.text "unknown") info)
      connect
      let containers ← Act.ofPlan (Act.ask .list)
      return (machine, containers)) adapter said result after) :
    Lists adapter said result after := by
  -- Step by step, with the conversation so far in front; the second question for a client says
  -- nothing, as there is one.
  rcases h.bind_cases with ⟨_, middle, first, rest, hconnect, hrest, rfl⟩ | ⟨_, hconnect, rfl⟩
  · have hconnect := connect_tells hconnect
    rcases hrest.bind_cases with ⟨given, _, info, later, hinfo, hlater, rfl⟩ | ⟨cause, hinfo, rfl⟩
    · obtain ⟨rfl, rfl⟩ := hinfo.ask_cases
      cases hgiven : field "Name" (.text "unknown") given with
      | error cause =>
        rw [hgiven] at hlater
        obtain ⟨rfl, rfl, rfl⟩ := hlater.error_bind
        exact .unnamed hconnect given hgiven
      | ok machine =>
        rw [hgiven] at hlater
        rcases hlater.ofExcept_bind.bind_cases with
          ⟨_, _, again, last, hagain, hlast, rfl⟩ | ⟨_, hagain, -⟩
        · obtain ⟨rfl, -, rfl⟩ := (connect_tells hagain).of_connected hconnect.connected
          rcases hlast.bind_cases with
            ⟨containers, _, list, none, hlist, hend, rfl⟩ | ⟨cause, hlist, rfl⟩
          · obtain ⟨rfl, rfl⟩ := hlist.ask_cases
            have hend : (Act.ofExcept (.ok (machine, containers))).Tells _ none result after := hend
            obtain ⟨rfl, rfl, rfl⟩ := hend.ofExcept_cases
            exact .asked hconnect given machine hgiven (.ok containers)
          · obtain ⟨rfl, rfl⟩ := hlist.ask_cases
            exact .asked hconnect given machine hgiven (.error cause)
        · -- a connected adapter cannot fail to connect
          cases ((connect_tells hagain).of_connected hconnect.connected).2.1
    · obtain ⟨rfl, rfl⟩ := hinfo.ask_cases
      exact .unknown hconnect cause
  · exact .unconnected (connect_tells hconnect)

/-- **The machine is asked for and then its containers**, and what the daemon lists is reported. -/
theorem reports_tells {result : Except Failure (List Report)}
    (h : reports.Tells adapter said result after) :
    ∃ inner, Lists adapter said inner after ∧
      result = (inner.mapError (Act.turned fun failure =>
        .rejected (.notListed failure.message))).bind fun listed =>
          listed.2.mapM (reportOf listed.1) := by
  rw [reports] at h
  -- Only the calls are watched for failures of the daemon. Making reports of what was listed is
  -- not.
  rcases h.bind_cases with
    ⟨⟨machine, containers⟩, middle, first, rest, hwork, hrest, rfl⟩ | ⟨failure, hwork, rfl⟩
  · obtain ⟨inner, hinner, hturned⟩ := hwork.rejecting_cases
    obtain ⟨rfl, rfl, rfl⟩ := Act.Tells.ofExcept_cases hrest
    refine ⟨inner, ?_, by rw [← hturned]; rfl⟩
    rw [List.append_nil]
    exact gather_tells hinner
  · obtain ⟨inner, hinner, hturned⟩ := hwork.rejecting_cases
    exact ⟨inner, gather_tells hinner, by rw [← hturned]; rfl⟩

end Adapter

end Rollout
