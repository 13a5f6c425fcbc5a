import Rollout.Proofs.CleanupCourse
import Rollout.Proofs.CleanupPacing
import Rollout.Proofs.DaemonTalk
import Rollout.Proofs.Histories

/-!
# The two sides of a cleanup

A job has two sides: it is scheduled, and it is tracked. A cleanup takes it from the scheduler and
then from the store, and between the two it is half removed. This file says when that can last: only
if an attempt in the store failed. It holds for the scheduler in memory and for the one that runs
containers, and whatever else fails.

What becomes of a name can be read off the conversation (`World.run_sides`): it is scheduled no
longer once the scheduler let go of it, and tracked no longer once the store did. In a conversation
that is paced as a cleanup is, the store is turned to exactly if the scheduler let go, so both did
or neither (`Cleanup.Paced.both_or_neither`).

`Task.goes_by_rule` puts together what is known of a run: its pace, that a cancellation hushes it,
and that no job is left half removed.
-/

namespace Rollout

/-! ### Containers that are removed -/

/-- A request that starts no container takes those away that it is to remove, if any. -/
theorem Daemon.mem_names_answer {request : Daemon.Call} (hrun : ∀ spec, request ≠ .run spec)
    (daemon : Daemon) (other : String) :
    other ∈ (Daemon.answer request daemon).2.names ↔
      other ∈ daemon.names ∧
        ∀ given, request = .remove given → given.same (.text other) = false := by
  cases request with
  | run spec => exact absurd rfl (hrun spec)
  | remove given =>
    rw [Daemon.answer, discard, names, List.mem_map, names, List.mem_map]
    simp only [List.mem_filter, isNamed, Bool.not_eq_true']
    constructor
    · rintro ⟨container, ⟨hmem, hother⟩, rfl⟩
      refine ⟨⟨container, hmem, rfl⟩, fun other heq => ?_⟩
      obtain rfl := Call.remove.inj heq
      exact hother
    · rintro ⟨⟨container, hmem, rfl⟩, hother⟩
      exact ⟨container, ⟨hmem, hother given rfl⟩, rfl⟩
  | connect | findNetwork | makeNetwork | find | info | list =>
    -- all other requests leave the containers alone
    exact ⟨fun hmem => ⟨hmem, fun _ heq => nomatch heq⟩, And.left⟩

namespace World

variable {α : Type} {opened : Opened} {stores : Stores} {world after : World}
  {tracked : List String} {name : String} {request : Call}

/-- What happens to containers in one call to the daemon. -/
theorem mem_names_daemonAnswer {request : Daemon.Call} (hrun : ∀ spec, request ≠ .run spec)
    (world : World) (other : String) :
    other ∈ (daemonAnswer request world).2.daemon.names ↔
      other ∈ world.daemon.names ∧
        ∀ given, (⟨.remove given, .ok ()⟩ : Exchange Daemon.Service) =
          ⟨request, (daemonAnswer request world).1⟩ → given.same (.text other) = false := by
  have hdaemon : (attend (.daemon request) world).2.daemon = world.daemon := rfl
  rw [daemonAnswer, recorded, ← hdaemon]
  rcases attend (.daemon request) world with ⟨_ | failure, attended⟩
  · -- no fault came in between
    refine (Daemon.mem_names_answer hrun attended.daemon other).trans (and_congr_right fun _ => ?_)
    constructor
    · intro hall given heq
      exact hall given (Exchange.mk.inj heq).1.symm
    · rintro hall given rfl
      exact hall given rfl
  · refine ⟨fun hmem => ⟨hmem, fun given heq => ?_⟩, And.left⟩
    obtain ⟨rfl, hanswer⟩ := Exchange.mk.inj heq
    cases eq_of_heq hanswer

/-- What happens to containers that are only looked for and removed. -/
theorem mem_names_run_daemon (plan : Plan Daemon.Service α) (world : World)
    (hnone : ∀ exchange ∈ plan.conversation daemonAnswer world, ∀ spec,
      exchange.request ≠ .run spec) (other : String) :
    other ∈ (plan.run daemonAnswer world).2.daemon.names ↔
      other ∈ world.daemon.names ∧
        ∀ given, ⟨.remove given, .ok ()⟩ ∈ plan.conversation daemonAnswer world →
          given.same (.text other) = false := by
  induction plan generalizing world with
  | done result => exact ⟨fun hmem => ⟨hmem, fun _ h => nomatch h⟩, And.left⟩
  | call request next ih =>
    obtain ⟨hrequest, hnext⟩ := List.forall_mem_cons.mp hnone
    -- what the first request leaves is what the rest of the conversation starts from
    have hstep := mem_names_daemonAnswer hrequest world other
    refine (ih (daemonAnswer request world).1 (daemonAnswer request world).2 hnext).trans ?_
    rw [hstep, and_assoc]
    refine and_congr_right fun _ => ?_
    constructor
    · rintro ⟨hfirst, hlater⟩ given hmem
      rcases List.mem_cons.mp hmem with heq | hmem
      · exact hfirst given heq
      · exact hlater given hmem
    · intro hall
      exact ⟨fun given heq => hall given (List.mem_cons.mpr (.inl heq)),
        fun given hmem => hall given (List.mem_cons_of_mem _ hmem)⟩

end World

namespace Adapter

variable {adapter after : Adapter} {name : Value} {said : Talk} {result : Except Failure Unit}
  {exchange : Exchange Daemon.Service}

/-- To take a client on, nothing else is asked for. -/
theorem Connects.request_eq (h : Connects adapter said result after) (hmem : exchange ∈ said) :
    exchange.request = .connect := by
  cases h with
  | there _ => cases hmem
  | taken _ | refused _ _ =>
    obtain rfl := List.mem_singleton.mp hmem
    rfl

/-- What is said to remove a container: only the last request is about its removal. -/
theorem Removes.mem_cases (h : Removes adapter name said result after) (hmem : exchange ∈ said) :
    exchange.request = .connect ∨ exchange.request = .find name ∨
      exchange = ⟨.remove name, result⟩ := by
  cases h with
  | unconnected hconnect => exact .inl (hconnect.request_eq hmem)
  | missed hconnect _ =>
    rcases List.mem_append.mp hmem with hmem | hmem
    · exact .inl (hconnect.request_eq hmem)
    · obtain rfl := List.mem_singleton.mp hmem
      exact .inr (.inl rfl)
  | asked hconnect _ =>
    rcases List.mem_append.mp hmem with hmem | hmem
    · exact .inl (hconnect.request_eq hmem)
    · rcases List.mem_cons.mp hmem with rfl | hmem
      · exact .inr (.inl rfl)
      · exact .inr (.inr (List.mem_singleton.mp hmem))

/-- To remove a container none is started, and it is gone exactly if that ended well. -/
theorem Removes.removed_iff (h : Removes adapter name said result after) :
    (∀ exchange ∈ said, ∀ spec, exchange.request ≠ .run spec) ∧
      ∀ given, ⟨.remove given, .ok ()⟩ ∈ said ↔ result = .ok () ∧ given = name := by
  refine ⟨fun exchange hmem spec hrun => ?_, fun given => ⟨fun hmem => ?_, ?_⟩⟩
  · rcases h.mem_cases hmem with hrequest | hrequest | rfl
    · cases hrequest.symm.trans hrun
    · cases hrequest.symm.trans hrun
    · cases hrun
  · rcases h.mem_cases hmem with hrequest | hrequest | heq
    · cases hrequest
    · cases hrequest
    · obtain ⟨hrequest, hanswer⟩ := Exchange.mk.inj heq
      exact ⟨(eq_of_heq hanswer).symm, Daemon.Call.remove.inj hrequest⟩
  · rintro ⟨rfl, rfl⟩
    cases h with
    | asked _ _ => exact List.mem_append_right _ (List.mem_cons_of_mem _ List.mem_cons_self)

end Adapter

/-- The call is one to the scheduler. -/
def Call.asksScheduler : Call → Bool
  | schedule _ | unschedule _ | report => true
  | _ => false

theorem Call.asksScheduler_of_isIdle {request : Call} (h : request.isIdle = true) :
    request.asksScheduler = false := by
  cases request with
  | log | wait | cancelled => rfl
  | schedule | unschedule | report | list | add | remove | update => cases h

namespace World

variable {α : Type} {opened : Opened} {stores : Stores} {world after : World}
  {tracked : List String} {name : String} {request : Call} {result : Except Failure Unit}

/-! ### The side of the scheduler -/

/-- **A scheduler of either kind lets go of a name** exactly if it is unscheduled with success. All
other names it keeps in both cases. -/
theorem mem_scheduled_onScheduler
    (h : onScheduler (Memory.unschedule (.text name)) (Adapter.unschedule (.text name)) world =
      (result, after)) (other : String) :
    other ∈ after.scheduled ↔ other ∈ world.scheduled ∧ ¬(result = .ok () ∧ other = name) := by
  rw [onScheduler] at h
  rw [scheduled, scheduled]
  cases hscheduler : world.scheduler with
  | memory memory =>
    rw [hscheduler] at h
    by_cases hmem : name ∈ memory.jobs.names
    · simp only [Memory.unschedule_of_mem hmem] at h
      obtain ⟨rfl, rfl⟩ := Prod.mk.inj h
      simp only [Named.mem_names_erase, true_and, and_comm]
    · simp only [Memory.unschedule_of_not_mem hmem] at h
      obtain ⟨rfl, rfl⟩ := Prod.mk.inj h
      simp only [reduceCtorEq, false_and, not_false_eq_true, and_true]
  | adapter adapter =>
    rw [hscheduler] at h
    obtain ⟨rfl, rfl⟩ := Prod.mk.inj h
    have htells := Adapter.Act.tells_perform daemonAnswer (Adapter.unschedule (.text name)) adapter
      world
    -- a daemon lets go of what it removed while the adapter spoke with it
    obtain ⟨inner, hremoves, hresult⟩ := Adapter.unschedule_tells htells
    obtain ⟨hnone, hremoved⟩ := hremoves.removed_iff
    -- the adapter succeeds exactly if the removal did
    have hok : inner = .ok () ↔
        ((Adapter.unschedule (.text name)).perform daemonAnswer adapter world).1 = .ok () := by
      rw [hresult]
      cases inner with
      | ok => exact ⟨fun _ => rfl, fun _ => rfl⟩
      | error => constructor <;> (intro hdone; cases hdone)
    refine (mem_names_run_daemon _ world hnone other).trans (and_congr_right fun _ => ?_)
    simp only [hremoved, hok]
    constructor
    · -- names are compared as values there, and texts that are the same value are equal
      rintro hall ⟨hdone, rfl⟩
      have hsame := hall (.text other) ⟨hdone, rfl⟩
      rw [Value.same_text, beq_self_eq_true] at hsame
      cases hsame
    · rintro hnot given ⟨hdone, rfl⟩
      rw [Value.same_text, beq_eq_false_iff_ne]
      rintro rfl
      exact hnot ⟨hdone, rfl⟩

theorem mem_scheduled_answer_unschedule
    (h : answer stores (.unschedule (.text name)) world = (result, after)) (other : String) :
    other ∈ after.scheduled ↔ other ∈ world.scheduled ∧ ¬(result = .ok () ∧ other = name) := by
  change recorded (.call (.unschedule (.text name))) _ world = (result, after) at h
  have hattend : (attend (.call (.unschedule (.text name))) world).2.scheduled = world.scheduled :=
    rfl
  rw [recorded] at h
  rcases hattended : attend (.call (.unschedule (.text name))) world with ⟨_ | failure, attended⟩
  · -- no fault: the scheduler itself answers
    rw [hattended] at h hattend
    rw [← hattend]
    exact mem_scheduled_onScheduler h other
  · -- a fault answers in its place, and nothing is let go of
    rw [hattended] at h hattend
    obtain ⟨rfl, rfl⟩ := Prod.mk.inj h
    rw [← hattend]
    refine ⟨fun hmem => ⟨hmem, ?_⟩, And.left⟩
    rintro ⟨hdone, -⟩
    cases hdone

/-- Calls that are not about the scheduler leave it alone. -/
theorem scheduled_answer (stores : Stores) (world : World) (h : request.asksScheduler = false) :
    (answer stores request world).2.scheduled = world.scheduled := by
  have hattend (request : Request) : Leaves (·.scheduled = world.scheduled) (attend request) :=
    fun _ h => h
  suffices hleaves : Leaves (·.scheduled = world.scheduled) (answer stores request) from
    hleaves world rfl
  cases request with
  | schedule | unschedule | report => cases h
  | list | add | remove | update => exact .inStore hattend fun _ _ _ h => h
  | log | wait => exact .perform hattend fun _ h => h
  | cancelled => exact fun _ h => h

/-! ### The side of the stores -/

/-- The world with another scheduler, which runs nothing. -/
def unscheduled (world : World) : World := { world with scheduler := .memory ⟨"", []⟩ }

/-- The stores are in order, and the job store tracks the names. Of the scheduler nothing is said,
as it may be one of containers, which no ledger shows. -/
def Tracks (opened : Opened) (world : World) (tracked : List String) : Prop :=
  ∃ ledger, world.unscheduled.Shows opened ledger ∧ ledger.tracked = tracked

theorem Shows.tracks {ledger : Ledger} (h : world.Shows opened ledger) :
    world.Tracks opened ledger.tracked :=
  ⟨{ ledger with definitions := [] }, ⟨⟨"", rfl⟩, h.time, h.jobs, h.processes, h.events⟩, rfl⟩

/-- What is tracked does not depend on the scheduler, nor on the daemon. -/
theorem leaves_tracks_attend (request : Request) :
    Leaves (·.Tracks opened tracked) (attend request) := by
  rintro world ⟨ledger, hshows, htracked⟩
  exact ⟨ledger, (attends_attend request world.unscheduled).shows hshows, htracked⟩

theorem leaves_tracks_unschedule (stores : Stores) (name : Value) :
    Leaves (·.Tracks opened tracked) (answer stores (.unschedule name)) := by
  refine .perform leaves_tracks_attend (.onScheduler leaves_tracks_attend (fun _ _ h => h) ?_ _ _)
  rintro world daemon ⟨ledger, hshows, htracked⟩
  exact ⟨ledger, ⟨hshows.memory, hshows.time, hshows.jobs, hshows.processes, hshows.events⟩,
    htracked⟩

/-- The step does the same without the scheduler. What is known of worlds that show a ledger can
then be used for worlds with an adapter. -/
def IgnoresScheduler {β : Type} (step : World → β × World) : Prop :=
  ∀ world, step world.unscheduled = ((step world).1, (step world).2.unscheduled)

/-- A call ignores the scheduler if the real thing does: faults are kept elsewhere. -/
theorem IgnoresScheduler.perform {β : Type} {real : World → Except Failure β × World}
    (hreal : IgnoresScheduler real) (request : Call) :
    IgnoresScheduler (World.perform request real) := by
  intro world
  have hattend : attend (.call request) world.unscheduled =
      ((attend (.call request) world).1, (attend (.call request) world).2.unscheduled) := rfl
  rw [World.perform, World.perform]
  cases recordable request with
  | error failure => rfl
  | ok _ =>
    simp only [recorded, hattend]
    rcases attend (.call request) world with ⟨_ | failure, attended⟩
    · exact hreal attended
    · rfl

theorem IgnoresScheduler.inStore {β : Type} (store : Option Value) (request : Call)
    (work : Surroundings → Value → Disk β) :
    IgnoresScheduler (World.inStore store request work) := by
  cases store with
  | none => exact fun _ => rfl
  | some file => exact .perform (fun _ => rfl) request

/-- Calls that are not about the scheduler do the same without it. -/
theorem answer_unscheduled (stores : Stores) (world : World) (h : request.asksScheduler = false) :
    answer stores request world.unscheduled =
      ((answer stores request world).1, (answer stores request world).2.unscheduled) := by
  suffices hignores : IgnoresScheduler (answer stores request) from hignores world
  cases request with
  | schedule | unschedule | report => cases h
  | list | add | remove | update => exact .inStore _ _ _
  | log event =>
    have hlog : IgnoresScheduler (onDisk fun site => EventLog.log site stores.events event) :=
      fun _ => rfl
    exact hlog.perform (.log event)
  | wait seconds =>
    have htold : IgnoresScheduler fun world : World =>
        (world.waitLimit.await world.isCancelled seconds, world) := fun _ => rfl
    exact htold.perform (.wait seconds)
  | cancelled => exact fun _ => rfl

/-- **The store lets go of a name** exactly if its job is removed with success. A fault on the way
leaves the row there, and so does a job that cannot be written. -/
theorem tracks_answer_remove (hserve : stores.Serve opened) (htracks : world.Tracks opened tracked)
    {job : Job} (hname : job.name? = .ok name)
    (h : answer stores (.remove job) world = (result, after)) :
    ∃ left, after.Tracks opened left ∧
      ∀ other, other ∈ left ↔ other ∈ tracked ∧ ¬(result = .ok () ∧ other = name) := by
  obtain ⟨ledger, hshows, rfl⟩ := htracks
  obtain ⟨next, hgives, hshown, -⟩ := answer_gives hserve hshows (.remove job)
  rw [answer_unscheduled stores world rfl, h] at hgives hshown
  obtain rfl := Cleanup.strikes_removing hname hgives
  refine ⟨_, ⟨_, hshown, rfl⟩, fun other => ?_⟩
  cases result with
  | error failure => exact ⟨fun hmem => ⟨hmem, fun hok => nomatch hok.1⟩, And.left⟩
  | ok _ =>
    rw [Cleanup.struck, Ledger.mem_tracked_remove, and_comm]
    exact and_congr_right fun _ => ⟨fun hne hok => hne hok.2, fun hnot heq => hnot ⟨rfl, heq⟩⟩

/-- Waits, questions and the log leave what is tracked alone. -/
theorem tracks_answer (hserve : stores.Serve opened) (htracks : world.Tracks opened tracked)
    (hidle : request.isIdle = true) : (answer stores request world).2.Tracks opened tracked := by
  obtain ⟨ledger, hshows, rfl⟩ := htracks
  obtain ⟨next, hgives, hshown, -⟩ := answer_gives hserve hshows request
  have hnext : next = ledger := by
    refine Cleanup.eq_of_gives hgives fun moment => ?_
    cases request with
    | log | wait | cancelled => rfl
    | schedule | unschedule | report | list | add | remove | update => cases hidle
  rw [answer_unscheduled stores world (Call.asksScheduler_of_isIdle hidle), hnext] at hshown
  exact ⟨ledger, hshown, rfl⟩

/-! ### Both sides in a conversation -/

/-- What a cleanup says: the scheduler is asked to let go of a name, the store of a job that has
one, or the call is idle. -/
inductive IsTalk : Call → Prop where
  | unschedule (name : String) : IsTalk (.unschedule (.text name))
  | remove {job : Job} {name : String} (hname : job.name? = .ok name) : IsTalk (.remove job)
  | idle {request : Call} (hidle : request.isIdle = true) : IsTalk request

/-- What became of both sides, as far as some exchanges can tell: a name is gone from the one on
which it was let go of. -/
structure Sides (said : List Said) (tracked left : List String) (world after : World) : Prop where
  store (name : String) : name ∈ left ↔
    name ∈ tracked ∧ ∀ job, job.name? = .ok name → Cleanup.removing job (.ok ()) ∉ said
  scheduler (name : String) : name ∈ after.scheduled ↔
    name ∈ world.scheduled ∧ Cleanup.unscheduling name (.ok ()) ∉ said

namespace Sides

variable {first later : List Said} {left last : List String} {between : World}

theorem nil : Sides [] tracked tracked world world :=
  ⟨fun _ => ⟨fun hmem => ⟨hmem, fun _ _ hsaid => nomatch hsaid⟩, And.left⟩,
    fun _ => ⟨fun hmem => ⟨hmem, fun hsaid => nomatch hsaid⟩, And.left⟩⟩

theorem append (h : Sides first tracked left world between)
    (h' : Sides later left last between after) :
    Sides (first ++ later) tracked last world after := by
  constructor
  · intro name
    rw [h'.store, h.store, and_assoc]
    simp only [List.mem_append, not_or, forall_and]
  · intro name
    rw [h'.scheduler, h.scheduler, and_assoc, List.mem_append, not_or]

end Sides

/-- **What one exchange does to both sides.** -/
theorem sides_answer (hserve : stores.Serve opened) (htracks : world.Tracks opened tracked)
    (htalk : IsTalk request) :
    ∃ left, (answer stores request world).2.Tracks opened left ∧
      Sides [⟨request, (answer stores request world).1⟩] tracked left world
        (answer stores request world).2 := by
  cases htalk with
  | unschedule name =>
    -- a name leaves the scheduler exactly if that was said to succeed
    have hleft := leaves_tracks_unschedule stores (.text name) world htracks
    obtain ⟨result, after, hanswer⟩ : ∃ result after,
      answer stores (.unschedule (.text name)) world = (result, after) := ⟨_, _, rfl⟩
    rw [hanswer] at hleft ⊢
    refine ⟨tracked, hleft, fun other => ?_, fun other => ?_⟩
    · refine ⟨fun hmem => ⟨hmem, fun job _ hsaid => ?_⟩, And.left⟩
      cases (Exchange.mk.inj (List.mem_singleton.mp hsaid)).1
    · rw [mem_scheduled_answer_unschedule hanswer, List.mem_singleton]
      refine and_congr_right fun _ => not_congr ⟨?_, fun hsaid => ?_⟩
      · rintro ⟨hok, rfl⟩
        rw [hok, Cleanup.unscheduling]
      · obtain ⟨hrequest, hok⟩ := Exchange.mk.inj hsaid
        exact ⟨(eq_of_heq hok).symm, Value.text.inj (Call.unschedule.inj hrequest)⟩
  | @remove job name hname =>
    -- a job leaves the store exactly if that was said to succeed
    have hscheduled : (answer stores (.remove job) world).2.scheduled = world.scheduled :=
      scheduled_answer stores world rfl
    obtain ⟨result, after, hanswer⟩ : ∃ result after,
      answer stores (.remove job) world = (result, after) := ⟨_, _, rfl⟩
    obtain ⟨left, hleft, hmem⟩ := tracks_answer_remove hserve htracks hname hanswer
    rw [hanswer] at hscheduled ⊢
    refine ⟨left, hleft, fun other => ?_, fun other => ?_⟩
    · rw [hmem]
      refine and_congr_right fun _ => ⟨fun hnot given hgiven hsaid => hnot ?_, ?_⟩
      · obtain ⟨hrequest, hok⟩ := Exchange.mk.inj (List.mem_singleton.mp hsaid)
        obtain rfl := Call.remove.inj hrequest
        exact ⟨(eq_of_heq hok).symm, Except.ok.inj (hgiven.symm.trans hname)⟩
      · rintro hnone ⟨hok, rfl⟩
        refine hnone job hname (List.mem_singleton.mpr ?_)
        rw [hok, Cleanup.removing]
    · rw [hscheduled]
      refine ⟨fun hmem => ⟨hmem, fun hsaid => ?_⟩, And.left⟩
      cases (Exchange.mk.inj (List.mem_singleton.mp hsaid)).1
  | idle hidle =>
    -- an idle exchange concerns neither side, and says nothing of either
    refine ⟨tracked, tracks_answer hserve htracks hidle, fun other => ?_, fun other => ?_⟩
    · refine ⟨fun hmem => ⟨hmem, fun job _ hsaid => ?_⟩, And.left⟩
      obtain rfl := (Exchange.mk.inj (List.mem_singleton.mp hsaid)).1
      cases hidle
    · rw [scheduled_answer stores world (Call.asksScheduler_of_isIdle hidle)]
      refine ⟨fun hmem => ⟨hmem, fun hsaid => ?_⟩, And.left⟩
      obtain rfl := (Exchange.mk.inj (List.mem_singleton.mp hsaid)).1
      cases hidle

/-- **What a conversation does to both sides.** By induction on what is said: a name is gone from a
side exactly if one of the exchanges took it from there. -/
theorem run_sides (hserve : stores.Serve opened) (htracks : world.Tracks opened tracked)
    (plan : Plan Collaborators α)
    (htalk : ∀ exchange ∈ conversation stores plan world, IsTalk exchange.request) :
    ∃ left, (World.run stores plan world).2.Tracks opened left ∧
      Sides (conversation stores plan world) tracked left world
        (World.run stores plan world).2 := by
  induction plan generalizing world tracked with
  | done result => exact ⟨tracked, htracks, .nil⟩
  | call request next ih =>
    obtain ⟨hrequest, hnext⟩ := List.forall_mem_cons.mp htalk
    obtain ⟨left, hleft, hfirst⟩ := sides_answer hserve htracks hrequest
    obtain ⟨last, hlast, hlater⟩ := ih _ hleft hnext
    exact ⟨last, hlast, hfirst.append hlater⟩

end World

namespace Cleanup

variable {cleanup : Cleanup} {fine : Bout → Prop} {visits : List Visit} {said : List Said}
  {name : String} {exchange : Said} {delay : Binary64} {attempt : Except Failure Unit → Said}

/-! ### Both sides in a paced conversation -/

/-- What is said in a bout: attempts, of which only the last one may succeed, and waits. -/
theorem Bout.eq_of_mem {bout : Bout} (h : exchange ∈ bout.script attempt delay) :
    (∃ failure, exchange = attempt (.error failure)) ∨ exchange = attempt bout.last ∨
      ∃ waited, exchange = ⟨.wait delay, waited⟩ := by
  rcases List.mem_append.mp h with hmem | hmem
  · obtain ⟨failure, -, hmem⟩ := List.mem_flatMap.mp hmem
    rcases List.mem_cons.mp hmem with rfl | hmem
    · exact .inl ⟨failure, rfl⟩
    · exact .inr (.inr ⟨_, List.mem_singleton.mp hmem⟩)
  · rcases List.mem_cons.mp hmem with rfl | hmem
    · exact .inr (.inl rfl)
    · obtain ⟨waited, -, rfl⟩ := List.mem_map.mp hmem
      exact .inr (.inr ⟨waited, rfl⟩)

theorem Bout.last_mem (bout : Bout) : attempt bout.last ∈ bout.script attempt delay :=
  List.mem_append_right _ List.mem_cons_self

/-- What is said about a job is said in one of the two bouts. -/
theorem Visit.mem_script {job : Job} {visit : Visit} :
    exchange ∈ visit.script cleanup job ↔
      exchange ∈ visit.unscheduling.script (Cleanup.unscheduling job.label) cleanup.delay ∨
        ∃ bout, visit.removing = some bout ∧
          exchange ∈ bout.script (Cleanup.removing job) cleanup.delay := by
  rw [Visit.script, List.mem_append]
  cases visit.removing <;> simp

theorem mem_visited {jobs : List Job} :
    exchange ∈ cleanup.visited jobs visits ↔
      ∃ job visit, (job, visit) ∈ jobs.zip visits ∧ exchange ∈ visit.script cleanup job := by
  rw [visited, ← List.map_uncurry_zip_eq_zipWith, List.mem_flatten]
  simp only [List.mem_map, Prod.exists, Function.uncurry_apply_pair]
  constructor
  · rintro ⟨_, ⟨job, visit, hpair, rfl⟩, hmem⟩
    exact ⟨job, visit, hpair, hmem⟩
  · rintro ⟨job, visit, hpair, hmem⟩
    exact ⟨_, ⟨job, visit, hpair, rfl⟩, hmem⟩

/-- The scheduler let go of a name if the last of the attempts succeeded. -/
theorem mem_visited_unscheduling {jobs : List Job} :
    Cleanup.unscheduling name (.ok ()) ∈ cleanup.visited jobs visits ↔
      ∃ job visit, (job, visit) ∈ jobs.zip visits ∧ job.label = name ∧
        visit.unscheduling.last = .ok () := by
  rw [mem_visited]
  refine exists_congr fun job => exists_congr fun visit => and_congr_right fun _ => ?_
  rw [Visit.mem_script]
  constructor
  · rintro (hbout | ⟨bout, -, hbout⟩)
    · rcases Bout.eq_of_mem hbout with ⟨_, heq⟩ | heq | ⟨_, heq⟩
      · cases eq_of_heq (Exchange.mk.inj heq).2
      · obtain ⟨hlabel, hlast⟩ := Exchange.mk.inj heq
        exact ⟨(Value.text.inj (Call.unschedule.inj hlabel)).symm, (eq_of_heq hlast).symm⟩
      · cases (Exchange.mk.inj heq).1
    · rcases Bout.eq_of_mem hbout with ⟨_, heq⟩ | heq | ⟨_, heq⟩
      all_goals cases (Exchange.mk.inj heq).1
  · rintro ⟨rfl, hlast⟩
    rw [← hlast]
    exact .inl visit.unscheduling.last_mem

/-- The store let go of a job if it was visited with success. -/
theorem mem_visited_removing {jobs : List Job} {job : Job} :
    Cleanup.removing job (.ok ()) ∈ cleanup.visited jobs visits ↔
      ∃ visit, (job, visit) ∈ jobs.zip visits ∧ visit.Succeeds := by
  rw [mem_visited]
  constructor
  · rintro ⟨given, visit, hpair, hscript⟩
    rcases Visit.mem_script.mp hscript with hbout | ⟨bout, hremoving, hbout⟩
    · -- it is no attempt in the scheduler, and no wait
      rcases Bout.eq_of_mem hbout with ⟨_, heq⟩ | heq | ⟨_, heq⟩
      all_goals cases (Exchange.mk.inj heq).1
    · -- in the store it is the last attempt, as all others failed
      rcases Bout.eq_of_mem hbout with ⟨_, heq⟩ | heq | ⟨_, heq⟩
      · cases eq_of_heq (Exchange.mk.inj heq).2
      · obtain ⟨hjob, hlast⟩ := Exchange.mk.inj heq
        obtain rfl := Call.remove.inj hjob
        exact ⟨visit, hpair, bout, hremoving, (eq_of_heq hlast).symm⟩
      · cases (Exchange.mk.inj heq).1
  · rintro ⟨visit, hpair, bout, hremoving, hlast⟩
    refine ⟨job, visit, hpair, Visit.mem_script.mpr (.inr ⟨bout, hremoving, ?_⟩)⟩
    rw [← hlast]
    exact bout.last_mem

namespace Paced

/-- **What is said in a paced conversation** is said about a job, or is idle. Idle calls, which ask
about cancellation, wait or log, change neither side. -/
theorem mem_cases (h : cleanup.Paced fine visits said) (hmem : exchange ∈ said) :
    exchange.request.isIdle = true ∨ exchange ∈ cleanup.visited cleanup.stale visits := by
  obtain ⟨waited, closing, hcalls, hclosing⟩ := h.calls
  by_cases hasks : exchange.request = .cancelled
  · rw [hasks]
    exact .inl rfl
  -- apart from questions, what is said is on record: the first wait, the visits, and an event
  have hcall : exchange ∈ Cleanup.calls said := by
    refine List.mem_filter.mpr ⟨hmem, ?_⟩
    split
    · next hrequest => exact absurd hrequest hasks
    · rfl
  rw [hcalls] at hcall
  rcases List.mem_cons.mp hcall with rfl | hcall
  · exact .inl rfl
  rcases List.mem_append.mp hcall with hcall | hcall
  · exact .inr hcall
  · rcases hclosing with rfl | ⟨event, answer, rfl⟩
    · cases hcall
    · obtain rfl := List.mem_singleton.mp hcall
      exact .inl rfl

theorem mem_of_visited (h : cleanup.Paced fine visits said)
    (hmem : exchange ∈ cleanup.visited cleanup.stale visits) : exchange ∈ said := by
  obtain ⟨waited, closing, hcalls, -⟩ := h.calls
  have hcall : exchange ∈ Cleanup.calls said := by
    rw [hcalls]
    exact List.mem_cons_of_mem _ (List.mem_append_left _ hmem)
  exact List.mem_of_mem_filter hcall

/-- It is the talk of a cleanup. -/
theorem isTalk (h : cleanup.Paced fine visits said)
    (hnames : ∀ job ∈ cleanup.stale, ∃ name, job.name? = .ok name) (hmem : exchange ∈ said) :
    World.IsTalk exchange.request := by
  rcases h.mem_cases hmem with hidle | hvisited
  · exact .idle hidle
  obtain ⟨job, visit, hpair, hscript⟩ := mem_visited.mp hvisited
  obtain ⟨name, hname⟩ := hnames job (List.of_mem_zip hpair).1
  rcases Visit.mem_script.mp hscript with hbout | ⟨bout, -, hbout⟩
  · rcases Bout.eq_of_mem hbout with ⟨_, rfl⟩ | rfl | ⟨_, rfl⟩
    · exact .unschedule _
    · exact .unschedule _
    · exact .idle rfl
  · rcases Bout.eq_of_mem hbout with ⟨_, rfl⟩ | rfl | ⟨_, rfl⟩
    · exact .remove hname
    · exact .remove hname
    · exact .idle rfl

/-- **Both sides or neither.** If no attempt in the store failed, the store let go of a name exactly
if the scheduler did. -/
theorem both_or_neither (h : cleanup.Paced fine visits said)
    (hnames : ∀ job ∈ cleanup.stale, ∃ name, job.name? = .ok name)
    (hstore : ∀ job failure, Cleanup.removing job (.error failure) ∉ said) (name : String) :
    Cleanup.unscheduling name (.ok ()) ∈ said ↔
      ∃ job, job.name? = .ok name ∧ Cleanup.removing job (.ok ()) ∈ said := by
  constructor
  · intro hmem
    have hvisited := (h.mem_cases hmem).resolve_left Bool.false_ne_true
    obtain ⟨job, visit, hpair, rfl, hlast⟩ := mem_visited_unscheduling.mp hvisited
    obtain ⟨name, hname⟩ := hnames job (List.of_mem_zip hpair).1
    rw [Job.label_of_name? hname]
    -- the scheduler let go of the job, so the store was turned to
    have hturned := (h.made visit (List.of_mem_zip hpair).2).inOrder.mpr hlast
    obtain ⟨bout, hbout⟩ := Option.isSome_iff_exists.mp hturned
    refine ⟨job, hname, h.mem_of_visited ?_⟩
    refine mem_visited_removing.mpr ⟨visit, hpair, bout, hbout, ?_⟩
    cases hlast : bout.last with
    | ok => rfl
    | error failure =>
      refine absurd (h.mem_of_visited ?_) (hstore job failure)
      refine mem_visited.mpr ⟨job, visit, hpair, Visit.mem_script.mpr (.inr ⟨bout, hbout, ?_⟩)⟩
      rw [← hlast]
      exact bout.last_mem
  · rintro ⟨job, hname, hmem⟩
    have hvisited := (h.mem_cases hmem).resolve_left Bool.false_ne_true
    obtain ⟨visit, hpair, bout, hbout, -⟩ := mem_visited_removing.mp hvisited
    refine h.mem_of_visited (mem_visited_unscheduling.mpr ⟨job, visit, hpair, ?_, ?_⟩)
    · exact Job.label_of_name? hname
    · have hmade := h.made visit (List.of_mem_zip hpair).2
      exact hmade.inOrder.mp (Option.isSome_iff_exists.mpr ⟨bout, hbout⟩)

end Paced

/-! ### Bouts that end in an attempt -/

theorem Bout.script_eq_concat {attempt : Except Failure Unit → Said} {bout : Bout}
    (hnone : bout.waited = none) (hattempt : ∀ result, IsAttempt (attempt result))
    (delay : Binary64) : ∃ earlier exchange,
      bout.script attempt delay = earlier ++ [exchange] ∧ IsAttempt exchange := by
  rw [Bout.script, hnone]
  exact ⟨_, _, rfl, hattempt _⟩

/-- So does a visit: in the store if the scheduler let go of the job, and else in the scheduler. -/
theorem Visit.script_eq_concat {visit : Visit}
    (hmade : visit.IsMade fun bout => bout.waited = none) (cleanup : Cleanup) (job : Job) :
    ∃ earlier exchange, visit.script cleanup job = earlier ++ [exchange] ∧ IsAttempt exchange := by
  obtain ⟨hleaving, hgiving, -⟩ := hmade
  have hunscheduling (result : Except Failure Unit) :
      IsAttempt (Cleanup.unscheduling job.label result) := .inl ⟨_, rfl⟩
  have hremoval (result : Except Failure Unit) : IsAttempt (Cleanup.removing job result) :=
    .inr ⟨job, rfl⟩
  rw [Visit.script]
  cases hremoving : visit.removing with
  | none =>
    rw [Option.toList_none, List.flatMap_nil, List.append_nil]
    exact Bout.script_eq_concat hleaving hunscheduling cleanup.delay
  | some bout =>
    obtain ⟨earlier, exchange, heq, hattempt⟩ :=
      Bout.script_eq_concat (hgiving bout hremoving) hremoval cleanup.delay
    rw [Option.toList_some, List.flatMap_singleton, heq, ← List.append_assoc]
    exact ⟨_, exchange, rfl, hattempt⟩

/-- What is said about jobs ends in an attempt, if no wait comes after the last one of a bout. -/
theorem eq_concat_of_visited {jobs : List Job}
    (hmade : ∀ visit ∈ visits, visit.IsMade fun bout => bout.waited = none) :
    cleanup.visited jobs visits = [] ∨ ∃ earlier exchange,
      cleanup.visited jobs visits = earlier ++ [exchange] ∧ IsAttempt exchange := by
  rw [visited]
  rcases List.eq_nil_or_concat (List.zipWith (Visit.script cleanup) jobs visits) with
    hnone | ⟨scripts, script, hscripts⟩
  · exact .inl (by rw [hnone, List.flatten_nil])
  · have hmem : script ∈ List.zipWith (Visit.script cleanup) jobs visits := by
      rw [hscripts, List.concat_eq_append]
      exact List.mem_append_right _ List.mem_cons_self
    rw [← List.map_uncurry_zip_eq_zipWith] at hmem
    obtain ⟨⟨job, visit⟩, hpair, rfl⟩ := List.mem_map.mp hmem
    obtain ⟨earlier, exchange, heq, hattempt⟩ :=
      Visit.script_eq_concat (hmade visit (List.of_mem_zip hpair).2) cleanup job
    refine .inr ⟨scripts.flatten ++ earlier, exchange, ?_, hattempt⟩
    rw [hscripts, List.concat_eq_append, List.flatten_concat, Function.uncurry_apply_pair, heq,
      List.append_assoc]

end Cleanup

namespace Task

variable {task : Task}

/-! ### Runs of tasks -/

/-- The course of a task that is run through. -/
def course (task : Task) (world : World) : List (Said × Bool) :=
  World.course task.stores (task.cleanup.run task.progress)
    { world with cancelled := some task.cancelled }

theorem map_course (task : Task) (world : World) :
    (task.course world).map (·.1) = task.conversation world := World.map_course _ _

/-- What is known of a task that is run through. The three parts are about the pace of its calls,
about cancellation, and about what becomes of its names. -/
structure GoesByRule (task : Task) (world : World) : Prop where
  /-- It keeps its pace. -/
  paced : ∃ visits,
    task.cleanup.Paced (Cleanup.Bout.IsWithin task.cleanup.retries) visits (task.conversation world)
  /-- It is hushed by a cancellation, whenever that comes in. -/
  hushed (before : List (Said × Bool)) (exchange : Said) (later : List (Said × Bool)) :
    task.course world = before ++ (exchange, true) :: later → Cleanup.Hushed exchange later
  /-- If it was cancelled before, it tries nothing. -/
  rests : task.cancelled = true → Cleanup.Rests (task.course world)
  /-- If no attempt in the store fails, a job that was scheduled and tracked is so still, or it is
  neither. -/
  sides (opened : Opened) (tracked : List String) : task.stores.Serve opened →
    world.Tracks opened tracked →
    (∀ job failure, Cleanup.removing job (.error failure) ∉ task.conversation world) →
    ∃ left, (task.runThrough world).2.Tracks opened left ∧
      ∀ name ∈ world.scheduled, name ∈ tracked →
        (name ∈ (task.runThrough world).2.scheduled ↔ name ∈ left)

/-- **A cleanup goes by its rule**, whatever fails in it and whoever cancels it. -/
theorem goes_by_rule (hnames : ∀ job ∈ task.cleanup.stale, ∃ name, job.name? = .ok name)
    (hstatus : task.status ≠ .waiting) (world : World) : task.GoesByRule world := by
  have hleads := Plan.leads_conversation (World.answer task.stores)
    (task.cleanup.run task.progress) { world with cancelled := some task.cancelled }
  have hcourse : Cleanup.IsCourse task.cancelled (task.course world) :=
    World.isCourse_course _ { world with cancelled := some task.cancelled }
  obtain ⟨visits, hpaced⟩ := Cleanup.exists_paced_of_leads hnames hleads
  obtain ⟨hhushes, hrests⟩ :=
    Cleanup.hushes_of_leads hnames hleads hcourse (task.map_course world)
  refine ⟨⟨visits, hpaced⟩, fun before exchange later heq => ?_, hrests, ?_⟩
  · rw [heq] at hhushes
    exact hhushes.hushed
  intro opened tracked hserve htracks hstore
  have hrunning : World.Tracks opened { world with cancelled := some task.cancelled } tracked := by
    obtain ⟨ledger, hshows, htracked⟩ := htracks
    exact ⟨ledger, shows_cancelled hshows, htracked⟩
  obtain ⟨left, ⟨ledger, hshows, htracked⟩, hsides⟩ := World.run_sides hserve hrunning
    (task.cleanup.run task.progress) fun exchange hmem => hpaced.isTalk hnames hmem
  rw [runThrough_eq hstatus]
  refine ⟨left, ⟨ledger, shows_cancelled hshows, htracked⟩, fun name hscheduled hmem => ?_⟩
  refine (hsides.scheduler name).trans (Iff.trans ?_ (hsides.store name).symm)
  have hstarted : name ∈ ({ world with cancelled := some task.cancelled } : World).scheduled :=
    hscheduled
  rw [and_iff_right hstarted, and_iff_right hmem]
  refine (not_congr (hpaced.both_or_neither hnames hstore name)).trans ?_
  simp only [not_exists, not_and]
  rfl

/-- If the scheduler rejects the first job once, that job is tried again and removed. No attempt in
the store fails, so nothing is left half removed. -/
theorem goes_by_rule_of_rejection :
    let world := runningOne [.rejecting .unschedule "web.3.web.1"]
    retiringTwo.GoesByRule world ∧ retiringTwo.stores.Serve Session.freshlyOpened ∧
      (∃ tracked, world.Tracks Session.freshlyOpened tracked) ∧ "web.3.web.1" ∈ world.scheduled ∧
      "web.3.web.1" ∉ (retiringTwo.runThrough world).2.scheduled := by
  intro world
  have hlegal : ∀ deed ∈ rollingOutOne [.rejecting .unschedule "web.3.web.1"],
      deed.IsLegal "web" := by
    rw [rollingOutOne]
    simp only [List.forall_mem_cons]
    exact ⟨Formation.isTyped_web (by decide +kernel), Blueprint.isTyped_web (by decide +kernel),
      Deed.isLegal_rejecting (by decide) _ _, List.forall_mem_nil _⟩
  obtain ⟨ledger, horder, -⟩ := (Session.fresh_inOrder "web").follow hlegal
  have hnames : ∀ job ∈ retiringTwo.cleanup.stale, ∃ name, job.name? = .ok name :=
    List.forall_mem_cons.mpr ⟨⟨"web.3.web.1", eq_ok_of_toOption (by decide +kernel)⟩,
      List.forall_mem_cons.mpr ⟨⟨"web.3.web.2", eq_ok_of_toOption (by decide +kernel)⟩,
        List.forall_mem_nil _⟩⟩
  have hserve : retiringTwo.stores.Serve Session.freshlyOpened := by
    refine ⟨rfl, fun _ hfile => ?_, rfl⟩
    cases hfile
  exact ⟨goes_by_rule hnames (by decide) world, hserve, ⟨ledger.tracked, horder.shows.tracks⟩,
    by decide +kernel, by decide +kernel⟩

/-- **A wait may come after the last attempt.** If the cleanup is cancelled while the scheduler
rejects a job, the further try is waited for, and only the wait tells that there is none. -/
theorem not_always_tried_after_waiting :
    let rejected : Fault :=
      ⟨.unschedule, some (.text "web.3.web.1"), 1, some (.reported .rejection "no capacity"), true⟩
    ¬∃ visits, retiringTwo.cleanup.Paced (fun bout =>
      bout.IsWithin retiringTwo.cleanup.retries ∧ bout.waited = none) visits
      (retiringTwo.conversation (runningOne [rejected])) := by
  rintro rejected ⟨visits, hpaced⟩
  have hpoints : (Cleanup.calls (retiringTwo.conversation (runningOne [rejected]))).map
      (Request.call ·.request |>.point) = [.wait, .unschedule, .wait, .log] := by decide +kernel
  obtain ⟨waited, closing, hcalls, hclosing⟩ := hpaced.calls
  have hmade : ∀ visit ∈ visits, visit.IsMade fun bout => bout.waited = none := by
    intro visit hmem
    obtain ⟨hleaving, hgiving, hinOrder⟩ := hpaced.made visit hmem
    exact ⟨hleaving.2, fun bout hbout => (hgiving bout hbout).2, hinOrder⟩
  rw [hcalls] at hpoints
  rcases Cleanup.eq_concat_of_visited hmade with hnone | ⟨earlier, exchange, hlast, hattempt⟩
  · -- the scheduler was asked
    rw [hnone] at hpoints
    rcases hclosing with rfl | ⟨event, answer, rfl⟩
    all_goals cases hpoints
  · -- what was said last, but for the log, was no attempt
    rw [hlast] at hpoints
    have hreversed := congrArg List.reverse hpoints
    rcases hclosing with rfl | ⟨event, answer, rfl⟩
    all_goals
      simp only [List.map_cons, List.map_append, List.reverse_cons,
        List.reverse_append] at hreversed
      rcases hattempt with ⟨name, hrequest⟩ | ⟨job, hrequest⟩
      all_goals
        simp [hrequest, Request.point] at hreversed

end Task

end Rollout
