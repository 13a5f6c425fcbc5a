import Rollout.Proofs.DaemonTalk

/-!
# What may be said to the daemon

What an adapter may say at a point depends only on what was said before: a client is asked for only
while there is none, the network is asked for only until it was there once, and a container is
started only then. `Adapter.Admits` is that law for one exchange and `Adapter.Orderly` for a turn.

The adapter keeps two flags, and these tell the truth about what was said (`Adapter.Recalls`): a
flag is raised by the call that succeeded and by nothing else. `Adapter.Goes` puts both together. It
is kept by each call (`Goes.call`, `Goes.taken`, `Goes.readied`), and so by each function
(`Goes.connect`, `Goes.prepare`, `Goes.start`, `Goes.remove`, `Goes.list`).

A daemon may fail in many ways, but only in kinds of its own (`Adapter.InKind`). Then what the
functions fail with is such a failure or a rejection already (`Adapter.IsRefusal`).
-/

namespace Rollout

namespace Adapter

/-! ### What may be said -/

/-- There is a client: one was given, or taken on. It is said of the talk so far, without a look
into the adapter. -/
def HasClient (given : Bool) (said : Talk) : Prop :=
  given = true ∨ ⟨.connect, .ok ()⟩ ∈ said

/-- The network was there: it was found or made. Once it was it is not looked for again, whatever
may have become of it since. -/
def HasNetwork (network : Value) (said : Talk) : Prop :=
  ⟨.findNetwork network, .ok ()⟩ ∈ said ∨ ⟨.makeNetwork network, .ok ()⟩ ∈ said

/-- What may be said after what was said in former turns and earlier in this one. Each kind of call
has its condition: a client is asked for only while there is none, the network only with a client
and only while it was not there, and a container is started only with the network. -/
def Admits (given : Bool) (network : Value) (past earlier : Talk) : Exchange Daemon.Service → Prop
  | ⟨.connect, _⟩ => ¬HasClient given (past ++ earlier)
  | ⟨.findNetwork name, _⟩ => name = network ∧ ¬HasNetwork network (past ++ earlier) ∧
      HasClient given (past ++ earlier)
  | ⟨.makeNetwork name, _⟩ => name = network ∧ ¬HasNetwork network (past ++ earlier) ∧
      ∃ before cause, earlier = before ++ [⟨.findNetwork name, .error cause⟩] ∧
        cause.kind = .daemonMissing
  | ⟨.run spec, _⟩ => spec.network = network ∧ HasNetwork network (past ++ earlier)
  | ⟨.find _, _⟩ | ⟨.remove _, _⟩ | ⟨.info, _⟩ | ⟨.list, _⟩ => HasClient given (past ++ earlier)

/-- Each exchange of a turn may be said when it is. The past of an exchange is all that was said
before, in earlier turns and in its own. -/
def Orderly (given : Bool) (network : Value) (past said : Talk) : Prop :=
  ∀ earlier exchange later, said = earlier ++ exchange :: later →
    Admits given network past earlier exchange

/-- The adapter knows whether there is a client, and whether the network was there. The two flags
say the same about all that was said so far as a look through the talk would. -/
structure Recalls (given : Bool) (network : Value) (said : Talk) (adapter : Adapter) : Prop where
  configured : adapter.network = network
  connected : adapter.connected = true ↔ HasClient given said
  networkReady : adapter.networkReady = true ↔ HasNetwork network said
  /-- Without a client there is no asking for the network. -/
  coherent : HasNetwork network said → HasClient given said

/-- An adapter that knows what was said knows of the network only if it has a client. -/
theorem Recalls.isCoherent {given : Bool} {network : Value} {said : Talk} {adapter : Adapter}
    (h : Recalls given network said adapter) :
    adapter.networkReady = true → adapter.connected = true :=
  fun hready => h.connected.mpr (h.coherent (h.networkReady.mp hready))

/-- A turn that is orderly so far, with an adapter that knows what was said. The two go together:
what may be said next depends on what the adapter recalls. -/
structure Goes (given : Bool) (network : Value) (past said : Talk) (adapter : Adapter) :
    Prop where
  orderly : Orderly given network past said
  recalls : Recalls given network (past ++ said) adapter

section Goes

variable {given : Bool} {network : Value} {past said first : Talk} {adapter after : Adapter}
  {exchange : Exchange Daemon.Service} {result : Except Failure Unit}

theorem hasClient_concat :
    HasClient given (said ++ [exchange]) ↔
      HasClient given said ∨ exchange = ⟨.connect, .ok ()⟩ := by
  rw [HasClient, HasClient, List.mem_append, List.mem_singleton, or_assoc, eq_comm (b := exchange)]

/-- One thing more that is said may be that the network is there. -/
theorem hasNetwork_concat :
    HasNetwork network (said ++ [exchange]) ↔ HasNetwork network said ∨
      exchange = ⟨.findNetwork network, .ok ()⟩ ∨ exchange = ⟨.makeNetwork network, .ok ()⟩ := by
  rw [HasNetwork, HasNetwork, List.mem_append, List.mem_append, List.mem_singleton,
    List.mem_singleton, or_or_or_comm, eq_comm (b := exchange), eq_comm (b := exchange)]

theorem Recalls.goes (h : Recalls given network past adapter) :
    Goes given network past [] adapter := by
  refine ⟨fun earlier exchange later hnil => ?_, ?_⟩
  · exact absurd hnil.symm (List.append_ne_nil_of_right_ne_nil _ (List.cons_ne_nil _ _))
  · rw [List.append_nil]
    exact h

/-- One thing more is said. -/
theorem Orderly.concat (h : Orderly given network past said)
    (hadmits : Admits given network past said exchange) :
    Orderly given network past (said ++ [exchange]) := by
  intro earlier other later hsplit
  -- The place in question is the last one, or it lies within what was said before.
  rcases List.eq_nil_or_concat later with rfl | ⟨front, last, rfl⟩
  · -- the exchange itself is the last one
    obtain ⟨rfl, hsame⟩ := List.append_inj' hsplit rfl
    obtain rfl := List.head_eq_of_cons_eq hsame
    exact hadmits
  · rw [List.concat_eq_append, ← List.cons_append, ← List.append_assoc] at hsplit
    exact h earlier other front (List.append_inj' hsplit rfl).1

/-- A call that gives neither a client nor the network raises no flag. -/
theorem Goes.call (h : Goes given network past said adapter)
    (hadmits : Admits given network past said exchange)
    (hclient : exchange ≠ ⟨.connect, .ok ()⟩) (hfound : exchange ≠ ⟨.findNetwork network, .ok ()⟩)
    (hmade : exchange ≠ ⟨.makeNetwork network, .ok ()⟩) :
    Goes given network past (said ++ [exchange]) adapter := by
  -- neither flag can be raised by the exchange
  have hsameClient : HasClient given (past ++ (said ++ [exchange])) ↔
      HasClient given (past ++ said) := by
    rw [← List.append_assoc, hasClient_concat, or_iff_left hclient]
  have hsameNetwork : HasNetwork network (past ++ (said ++ [exchange])) ↔
      HasNetwork network (past ++ said) := by
    rw [← List.append_assoc, hasNetwork_concat, or_iff_left (not_or.mpr ⟨hfound, hmade⟩)]
  refine ⟨h.orderly.concat hadmits, h.recalls.configured, ?_, ?_, ?_⟩
  · rw [hsameClient]
    exact h.recalls.connected
  · rw [hsameNetwork]
    exact h.recalls.networkReady
  · rw [hsameClient, hsameNetwork]
    exact h.recalls.coherent

/-- A client that is taken on is remembered. -/
theorem Goes.taken (h : Goes given network past said adapter)
    (hclient : adapter.connected = false) :
    Goes given network past (said ++ [⟨.connect, .ok ()⟩]) { adapter with connected := true } := by
  -- The flag was down, so there was no client in all that was said.
  have hnone : ¬HasClient given (past ++ said) := fun hthere =>
    Bool.false_ne_true (hclient.symm.trans (h.recalls.connected.mpr hthere))
  have hthere : HasClient given (past ++ (said ++ [⟨.connect, .ok ()⟩])) := by
    rw [← List.append_assoc, hasClient_concat]
    exact .inr rfl
  refine ⟨h.orderly.concat hnone, h.recalls.configured, iff_of_true rfl hthere, ?_, fun _ => hthere⟩
  rw [← List.append_assoc, hasNetwork_concat, or_iff_left (not_or.mpr ⟨nofun, nofun⟩)]
  exact h.recalls.networkReady

/-- A network that was found or made is remembered. -/
theorem Goes.readied (h : Goes given network past said adapter)
    (hclient : adapter.connected = true) (hadmits : Admits given network past said exchange)
    (hready : exchange = ⟨.findNetwork network, .ok ()⟩ ∨
      exchange = ⟨.makeNetwork network, .ok ()⟩) :
    Goes given network past (said ++ [exchange]) { adapter with networkReady := true } := by
  -- To find or to make the network is not to take a client on, so the other flag stays.
  have hother : exchange ≠ ⟨.connect, .ok ()⟩ := by
    rcases hready with rfl | rfl <;> nofun
  have hsame : HasClient given (past ++ (said ++ [exchange])) ↔ HasClient given (past ++ said) := by
    rw [← List.append_assoc, hasClient_concat, or_iff_left hother]
  have hthere : HasNetwork network (past ++ (said ++ [exchange])) := by
    rw [← List.append_assoc, hasNetwork_concat]
    exact .inr hready
  refine ⟨h.orderly.concat hadmits, h.recalls.configured, ?_, iff_of_true rfl hthere, fun _ => ?_⟩
  · rw [hsame]
    exact h.recalls.connected
  · rw [hsame]
    exact h.recalls.connected.mp hclient

/-! ### What the functions say -/

/-- **Taking a client on is orderly.** -/
theorem Goes.connect (h : Goes given network past said adapter)
    (hconnect : Connects adapter first result after) :
    Goes given network past (said ++ first) after := by
  -- Three ways: the client is there, it is taken on, or it is refused and nothing changes.
  cases hconnect with
  | there _ =>
    rw [List.append_nil]
    exact h
  | taken hclient => exact h.taken hclient
  | refused hclient cause =>
    refine h.call (fun hthere => ?_) nofun nofun nofun
    exact Bool.false_ne_true (hclient.symm.trans (h.recalls.connected.mpr hthere))

theorem Connects.networkReady_eq (h : Connects adapter first result after) :
    after.networkReady = adapter.networkReady := by
  cases h <;> rfl

/-- The network is looked for with a client, and only while it was not there yet. -/
theorem Goes.admits_findNetwork (h : Goes given network past said adapter)
    (hclient : adapter.connected = true) (hready : adapter.networkReady = false)
    (answer : Except Failure Unit) :
    Admits given network past said ⟨.findNetwork adapter.network, answer⟩ := by
  refine ⟨h.recalls.configured, fun hthere => ?_, h.recalls.connected.mp hclient⟩
  exact Bool.false_ne_true (hready.symm.trans (h.recalls.networkReady.mpr hthere))

/-- The network is made as soon as it is said to be missing. -/
theorem Goes.missed (h : Goes given network past said adapter) (hclient : adapter.connected = true)
    (hready : adapter.networkReady = false) {cause : Failure} (hcause : cause.kind = .daemonMissing)
    (answer : Except Failure Unit) :
    Goes given network past (said ++ [⟨.findNetwork adapter.network, .error cause⟩]) adapter ∧
      Admits given network past (said ++ [⟨.findNetwork adapter.network, .error cause⟩])
        ⟨.makeNetwork adapter.network, answer⟩ := by
  have hgoes := h.call (h.admits_findNetwork hclient hready (.error cause)) nofun nofun nofun
  refine ⟨hgoes, h.recalls.configured, fun hthere => ?_, said, cause, rfl, hcause⟩
  exact Bool.false_ne_true (hready.symm.trans (hgoes.recalls.networkReady.mpr hthere))

/-- **Making sure of the network is orderly.** -/
theorem Goes.prepare (h : Goes given network past said adapter)
    (hprepare : Prepares adapter first result after) :
    Goes given network past (said ++ first) after := by
  cases hprepare with
  | there _ =>
    rw [List.append_nil]
    exact h
  | unconnected _ hconnect => exact h.connect hconnect
  | found hready hconnect =>
    -- asked for, and there: the network is remembered as ready
    have hgoes := h.connect hconnect
    have hadmits := hgoes.admits_findNetwork hconnect.connected
      (hconnect.networkReady_eq.trans hready) (.ok ())
    rw [hconnect.network_eq] at hadmits
    rw [← List.append_assoc]
    exact hgoes.readied hconnect.connected hadmits (.inl (by rw [h.recalls.configured]))
  | unsearched hready hconnect cause _ =>
    -- the search failed for another reason than a missing network
    have hgoes := h.connect hconnect
    have hadmits := hgoes.admits_findNetwork hconnect.connected
      (hconnect.networkReady_eq.trans hready) (.error cause)
    rw [hconnect.network_eq] at hadmits
    rw [← List.append_assoc]
    exact hgoes.call hadmits nofun nofun nofun
  | made hready hconnect cause hcause =>
    -- a network that is missing is made, which readies it if that succeeds
    obtain ⟨hgoes, hadmits⟩ := (h.connect hconnect).missed hconnect.connected
      (hconnect.networkReady_eq.trans hready) hcause (.ok ())
    rw [hconnect.network_eq] at hgoes hadmits
    have hmade := hgoes.readied hconnect.connected hadmits (.inr (by rw [h.recalls.configured]))
    simpa only [List.append_assoc, List.cons_append, List.nil_append] using hmade
  | unmade hready hconnect cause hcause failure =>
    obtain ⟨hgoes, hadmits⟩ := (h.connect hconnect).missed hconnect.connected
      (hconnect.networkReady_eq.trans hready) hcause (.error failure)
    rw [hconnect.network_eq] at hgoes hadmits
    have hmade := hgoes.call hadmits nofun nofun nofun
    simpa only [List.append_assoc, List.cons_append, List.nil_append] using hmade

/-- **Starting a container is orderly.** -/
theorem Goes.start (h : Goes given network past said adapter) {definition : Definition}
    (hstart : Starts adapter definition first result after) :
    Goes given network past (said ++ first) after := by
  -- A container is started only where the network was made sure of, which is what `Admits` asks
  -- for.
  cases hstart with
  | unprepared hprepare | unready hprepare _ _ => exact h.prepare hprepare
  | run hprepare spec hnetwork answer =>
    have hgoes := h.prepare hprepare
    rw [← List.append_assoc]
    refine hgoes.call ⟨hnetwork.trans h.recalls.configured, ?_⟩ nofun nofun nofun
    exact hgoes.recalls.networkReady.mp (hprepare.prepared h.recalls.isCoherent).1

/-- **Removing a container is orderly.** -/
theorem Goes.remove (h : Goes given network past said adapter) {name : Value}
    (hremove : Removes adapter name first result after) :
    Goes given network past (said ++ first) after := by
  cases hremove with
  | unconnected hconnect => exact h.connect hconnect
  | missed hconnect cause =>
    have hgoes := h.connect hconnect
    rw [← List.append_assoc]
    exact hgoes.call (hgoes.recalls.connected.mp hconnect.connected) nofun nofun nofun
  | asked hconnect answer =>
    have hgoes := h.connect hconnect
    -- Both calls need a client, and the one that the turn began with lasts to its end.
    have hfind : Admits given network past _ ⟨.find name, .ok ()⟩ :=
      hgoes.recalls.connected.mp hconnect.connected
    have hfound := hgoes.call hfind nofun nofun nofun
    have hremove : Admits given network past _ ⟨.remove name, result⟩ :=
      hfound.recalls.connected.mp hconnect.connected
    have hremoved := hfound.call hremove nofun nofun nofun
    simpa only [List.append_assoc, List.cons_append, List.nil_append] using hremoved

/-- **Asking what runs is orderly.** -/
theorem Goes.list (h : Goes given network past said adapter)
    {result : Except Failure (Value × List Container)}
    (hlist : Lists adapter first result after) : Goes given network past (said ++ first) after := by
  cases hlist with
  | unconnected hconnect => exact h.connect hconnect
  | unknown hconnect _ | unnamed hconnect _ _ =>
    have hgoes := h.connect hconnect
    rw [← List.append_assoc]
    exact hgoes.call (hgoes.recalls.connected.mp hconnect.connected) nofun nofun nofun
  | asked hconnect info machine _ answer =>
    have hgoes := h.connect hconnect
    -- As for a removal: two calls with the same client.
    have hinfo : Admits given network past _ ⟨.info, .ok info⟩ :=
      hgoes.recalls.connected.mp hconnect.connected
    have hinformed := hgoes.call hinfo nofun nofun nofun
    have hlist : Admits given network past _ ⟨.list, answer⟩ :=
      hinformed.recalls.connected.mp hconnect.connected
    have hlisted := hinformed.call hlist nofun nofun nofun
    simpa only [List.append_assoc, List.cons_append, List.nil_append] using hlisted

end Goes

/-! ### Failures -/

/-- What is answered fails, if at all, as daemons do. -/
def FailsInKind {α : Type} (answer : Except Failure α) : Prop :=
  ∀ failure, answer = .error failure → failure.kind.isDaemon = true

theorem failsInKind_ok {α : Type} (result : α) : FailsInKind (.ok result) := nofun

/-- What comes back from a daemon: failures of its own, dictionaries about itself and its
containers. Names that are no texts are not looked for, and nothing is said of what comes back
then. -/
def InKind : Exchange Daemon.Service → Prop
  | ⟨.connect, answer⟩ | ⟨.run _, answer⟩ => FailsInKind answer
  | ⟨.findNetwork name, answer⟩ | ⟨.makeNetwork name, answer⟩ | ⟨.find name, answer⟩
  | ⟨.remove name, answer⟩ => (∃ text, name = .text text) → FailsInKind answer
  | ⟨.info, answer⟩ =>
    FailsInKind answer ∧ ∀ given, answer = .ok given → ∃ entries, given = .dict entries
  | ⟨.list, answer⟩ =>
    FailsInKind answer ∧ ∀ containers, answer = .ok containers →
      ∀ container ∈ containers, ∃ entries, container.labels = .dict entries

/-- Any call may fail as daemons do. -/
theorem inKind_error {request : Daemon.Call} {failure : Failure}
    (h : failure.kind.isDaemon = true) : InKind ⟨request, .error failure⟩ := by
  have hfails {α : Type} : FailsInKind (.error failure : Except Failure α) :=
    fun _ hfailure => Except.error.inj hfailure ▸ h
  cases request with
  | connect | run _ => exact hfails
  | findNetwork _ | makeNetwork _ | find _ | remove _ => exact fun _ => hfails
  | info | list => exact ⟨hfails, nofun⟩

/-- A failure that becomes a rejection: one of the daemon, or a rejection already. All others pass
through the adapter as they are. -/
def IsRefusal (failure : Failure) : Prop :=
  failure.kind.isDaemon = true ∨ failure.kind = .rejection

theorem IsRefusal.turned {failure : Failure} (h : IsRefusal failure)
    {rejection : Failure → Failure} (hrejection : ∀ cause, (rejection cause).kind = .rejection) :
    (Act.turned rejection failure).kind = .rejection := by
  rw [Act.turned]
  -- A failure of the daemon is turned into a rejection, and a rejection is handed on.
  split
  · exact hrejection failure
  · next hother => exact h.resolve_left hother

section Failures

variable {adapter after : Adapter} {said : Talk} {failure : Failure}

/-- A name that fails the checks is rejected. -/
theorem kind_of_labels?_eq_error {name : String} (h : labels? name = .error failure) :
    failure.kind = .rejection := by
  rw [labels?] at h
  -- Either of the two checks that a name must pass gives a rejection.
  split at h
  · exact Except.error.inj h ▸ rfl
  · split at h
    · cases h
    · exact Except.error.inj h ▸ rfl

theorem kind_removalFailure (name : String) (cause : Failure) :
    (removalFailure (.text name) cause).kind = .rejection := by
  rw [removalFailure]
  split <;> rfl

theorem Connects.rejects (h : Connects adapter said (.error failure) after)
    (hkind : ∀ exchange ∈ said, InKind exchange) : failure.kind = .rejection := by
  cases h with
  | refused _ cause =>
    have hcause : FailsInKind (.error cause) := hkind _ List.mem_cons_self
    exact IsRefusal.turned (.inl (hcause cause rfl)) fun _ => rfl

/-- Making sure of the network fails as the daemon does. -/
theorem Prepares.refuses (h : Prepares adapter said (.error failure) after)
    (hnetwork : ∃ text, adapter.network = .text text)
    (hkind : ∀ exchange ∈ said, InKind exchange) : IsRefusal failure := by
  -- Wherever it fails, the last thing said is what failed, and that came back from a daemon.
  cases h with
  | unconnected _ hconnect => exact .inr (hconnect.rejects hkind)
  | unsearched _ _ cause _ =>
    have hcause : InKind ⟨.findNetwork adapter.network, .error failure⟩ :=
      hkind _ (List.mem_append_right _ List.mem_cons_self)
    exact .inl (hcause hnetwork failure rfl)
  | unmade _ _ cause _ failure =>
    have hcause : InKind ⟨.makeNetwork adapter.network, .error failure⟩ :=
      hkind _ (List.mem_append_right _ (List.mem_cons_of_mem _ List.mem_cons_self))
    exact .inl (hcause hnetwork failure rfl)

/-- Starting a container of a definition that the adapter takes fails as the daemon does. -/
theorem Starts.refuses {definition : Definition}
    (h : Starts adapter definition said (.error failure) after) (hready : IsReady definition)
    (hnetwork : ∃ text, adapter.network = .text text)
    (hkind : ∀ exchange ∈ said, InKind exchange) : IsRefusal failure := by
  cases h with
  | unprepared hprepare => exact hprepare.refuses hnetwork hkind
  -- The definition is one that the adapter takes.
  | unready _ hnot _ => exact absurd hready hnot
  | run _ spec _ answer =>
    have hcause : FailsInKind (.error failure) :=
      hkind ⟨.run spec, .error failure⟩ (List.mem_append_right _ List.mem_cons_self)
    exact .inl (hcause failure rfl)

/-- Removing a container fails as the daemon does. -/
theorem Removes.refuses {name : String}
    (h : Removes adapter (.text name) said (.error failure) after)
    (hkind : ∀ exchange ∈ said, InKind exchange) : IsRefusal failure := by
  cases h with
  | unconnected hconnect => exact .inr (hconnect.rejects hkind)
  | missed _ cause =>
    have hcause : InKind ⟨.find (.text name), .error failure⟩ :=
      hkind _ (List.mem_append_right _ List.mem_cons_self)
    exact .inl (hcause ⟨name, rfl⟩ failure rfl)
  | asked _ answer =>
    have hcause : InKind ⟨.remove (.text name), .error failure⟩ :=
      hkind _ (List.mem_append_right _ (List.mem_cons_of_mem _ List.mem_cons_self))
    exact .inl (hcause ⟨name, rfl⟩ failure rfl)

/-- Asking what runs fails as the daemon does. -/
theorem Lists.refuses (h : Lists adapter said (.error failure) after)
    (hkind : ∀ exchange ∈ said, InKind exchange) : IsRefusal failure := by
  -- The result is set apart, since the cases cannot be told from a failure of unknown form.
  generalize hresult :
    (Except.error failure : Except Failure (Value × List Container)) = result at h
  cases h with
  | unconnected hconnect =>
    obtain rfl := Except.error.inj hresult
    exact .inr (hconnect.rejects hkind)
  | unknown _ cause =>
    obtain rfl := Except.error.inj hresult
    have hcause : InKind ⟨.info, .error failure⟩ :=
      hkind _ (List.mem_append_right _ List.mem_cons_self)
    exact .inl (hcause.1 failure rfl)
  | unnamed _ given hgiven =>
    -- a daemon in kind tells of itself in entries, which have a name
    have hinfo : InKind ⟨.info, .ok given⟩ := hkind _ (List.mem_append_right _ List.mem_cons_self)
    obtain ⟨entries, rfl⟩ := hinfo.2 given rfl
    cases hgiven
  | asked _ given machine _ answer =>
    cases answer with
    | ok _ => cases hresult
    | error cause =>
      obtain rfl := Except.error.inj hresult
      have hcause : InKind ⟨.list, .error failure⟩ :=
        hkind _ (List.mem_append_right _ (List.mem_cons_of_mem _ List.mem_cons_self))
      exact .inl (hcause.1 failure rfl)

/-- Containers whose labels are dictionaries are reported. -/
theorem exists_mapM_reportOf (machine : Value) {containers : List Container}
    (h : ∀ container ∈ containers, ∃ entries, container.labels = .dict entries) :
    ∃ listed, containers.mapM (reportOf machine) = .ok listed := by
  induction containers with
  | nil => exact ⟨[], rfl⟩
  | cons first rest ih =>
    obtain ⟨entries, hfirst⟩ := h first List.mem_cons_self
    obtain ⟨listed, hrest⟩ := ih fun container hmem => h container (List.mem_cons_of_mem _ hmem)
    -- A container whose labels are entries is reported, whatever its labels are.
    rw [List.mapM_cons, hrest, reportOf, hfirst]
    exact ⟨_, rfl⟩

/-- What is listed by a daemon in kind is reported. -/
theorem Lists.exists_reports {listed : Value × List Container}
    (h : Lists adapter said (.ok listed) after) (hkind : ∀ exchange ∈ said, InKind exchange) :
    ∃ reports, listed.2.mapM (reportOf listed.1) = .ok reports := by
  generalize hresult : (Except.ok listed : Except Failure (Value × List Container)) = result at h
  cases h with
  | unconnected _ | unknown _ _ | unnamed _ _ _ => cases hresult
  | asked _ given machine _ answer =>
    cases answer with
    | error _ => cases hresult
    | ok containers =>
      obtain rfl := Except.ok.inj hresult
      have hlist : InKind ⟨.list, .ok containers⟩ :=
        hkind _ (List.mem_append_right _ (List.mem_cons_of_mem _ List.mem_cons_self))
      exact exists_mapM_reportOf machine (hlist.2 containers rfl)

end Failures

end Adapter

end Rollout
