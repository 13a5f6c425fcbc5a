import Rollout.Proofs.Keeping
import Rollout.Proofs.Running

/-!
# Strands

A *strand* is work that is done call by call in a world in which other things are done in between.
What its next call comes to can be told from the ledger that the world shows then
(`Strand.advance_eq`).

Two worlds are *twins* on a part of their ledgers if they show the same of it (`World.Twins`). A
strand that keeps to the part goes on in the same way in both, and they stay twins
(`Strand.advance_twins`). A strand that keeps to a part that has nothing in common with it can go on
in one of them alone (`Strand.advance_apart`).
-/

namespace Rollout

variable {α : Type} {opened : Opened} {part other : Part} {world twin after : World}
  {ledger mirror : Ledger}

/-! ### Strands -/

/-- Work that is done call by call while other work is done in the same world. The faults that lie
in wait for it and whether it is cancelled are its own, so what strikes one strand never strikes
another. -/
structure Strand (α : Type) where
  plan : Plan Collaborators α
  stores : Stores
  faults : List Fault
  cancelled : Option Bool

/-- The world without the faults and the cancellation of anyone. -/
def World.bare (world : World) : World := { world with faults := [], cancelled := none }

namespace Strand

variable {strand : Strand α} {results : α → Prop}

/-- What a strand came to, once it has nothing left to do. -/
def result? (strand : Strand α) : Option α :=
  match strand.plan with
  | .done result => some result
  | .call _ _ => none

/-- The world as a strand finds it. -/
def enter (strand : Strand α) (world : World) : World :=
  { world with faults := strand.faults, cancelled := strand.cancelled }

/-- Makes the next call of a strand, if there is one. The world is given its faults and its
cancellation for the call, and is left without any, for whoever comes next. -/
def advance (strand : Strand α) (world : World) : Strand α × World :=
  match strand.plan with
  | .done _ => (strand, world)
  | .call request next =>
    let answered := World.answer strand.stores request (strand.enter world)
    ({ strand with
        plan := next answered.1
        faults := answered.2.faults
        cancelled := answered.2.cancelled }, answered.2.bare)

theorem advance_of_done {result : α} (h : strand.plan = .done result) (world : World) :
    strand.advance world = (strand, world) := by
  rw [advance, h]

theorem advance_of_call {request : Call} {next : request.Answer → Plan Collaborators α}
    (h : strand.plan = .call request next) {answer : request.Answer}
    (hanswer : World.answer strand.stores request (strand.enter world) = (answer, after)) :
    strand.advance world = ({ strand with
        plan := next answer
        faults := after.faults
        cancelled := after.cancelled }, after.bare) := by
  rw [advance, h]
  dsimp only
  rw [hanswer]

/-- A strand that keeps to a part still does so when it goes on. -/
theorem keepsTo_advance (h : strand.plan.KeepsTo part results) (world : World) :
    (strand.advance world).1.plan.KeepsTo part results ∧
      (strand.advance world).1.stores = strand.stores := by
  rw [advance]
  split
  · exact ⟨h, rfl⟩
  · next request next hplan =>
    rw [hplan] at h
    -- What comes next keeps to the part for every answer, so for this one.
    cases h with
    | call _ _ hrest => exact ⟨hrest _, rfl⟩

end Strand

/-! ### What a call comes to -/

/-- What a request meets depends on the faults that lie in wait, and on nothing else. -/
theorem World.meet_congr {stores : Stores} {request : Call} (hfaults : world.faults = twin.faults)
    (hcancelled : world.cancelled = twin.cancelled) :
    (meet stores request world).1 = (meet stores request twin).1 ∧
      (meet stores request world).2.faults = (meet stores request twin).2.faults ∧
      (meet stores request world).2.cancelled = (meet stores request twin).2.cancelled := by
  rw [meet, meet]
  -- A request that attends looks through the faults that wait; all others meet nothing.
  split
  · rw [attend, attend, hfaults, hcancelled]
    exact ⟨rfl, rfl, rfl⟩
  · exact ⟨rfl, hfaults, hcancelled⟩

/-- Two worlds stand on the same ground: processes run in the same place and at the same time, the
daemon and the mirror of the scheduler are the same, and a wait may last for as long in both. No
call changes any of it. -/
structure World.SameGround (world twin : World) : Prop where
  site : world.site = twin.site
  machine : world.machine = twin.machine
  waitLimit : world.waitLimit = twin.waitLimit

namespace World.SameGround

theorem refl (world : World) : world.SameGround world := ⟨rfl, rfl, rfl⟩

theorem symm (h : world.SameGround twin) : twin.SameGround world :=
  ⟨h.site.symm, h.machine.symm, h.waitLimit.symm⟩

theorem trans {other : World} (h : world.SameGround twin) (h' : twin.SameGround other) :
    world.SameGround other :=
  ⟨h.site.trans h'.site, h.machine.trans h'.machine, h.waitLimit.trans h'.waitLimit⟩

end World.SameGround

theorem World.Shows.disregard (h : world.Shows opened ledger) (faults : List Fault)
    (cancelled : Option Bool) : ({ world with faults, cancelled } : World).Shows opened ledger :=
  ⟨h.memory, h.time, h.jobs, h.processes, h.events⟩

namespace Ledger

variable {request : Call} {moment : Moment} {met : Option Failure}

/-- What a call comes to that may meet a fault. It is a function of the ledger, of what is met and
of the moment, and so of nothing else in the world. -/
def respond (moment : Moment) (met : Option Failure) (request : Call) (ledger : Ledger) :
    request.Answer × Ledger :=
  match met with
  | some failure => (request.fail failure, ledger)
  | none => ledger.answer moment request

/-- On ledgers that are the same on the part a plan goes on in the same way, with or without a
fault. -/
theorem next_respond_eq {next : request.Answer → Plan Collaborators α}
    (hwithin : request.IsWithin part)
    (hsame : ∀ answer other, request.Alike part answer other → next answer = next other)
    (h : ledger.SameOn part mirror) (hsound : ledger.IsSound) (hmirror : mirror.IsSound) :
    next (ledger.respond moment met request).1 = next (mirror.respond moment met request).1 ∧
      (ledger.respond moment met request).2.SameOn part (mirror.respond moment met request).2 := by
  -- A fault gives the same failure on both; without one the answers are alike, and that is all the
  -- plan looks at.
  cases met with
  | some failure => exact ⟨rfl, h⟩
  | none =>
    obtain ⟨halike, hafter⟩ := alike_answer moment hwithin h hsound hmirror
    exact ⟨hsame _ _ halike, hafter⟩

theorem sameOn_respond_apart (hwithin : request.IsWithin part) (hapart : part.Apart other) :
    ledger.SameOn other (ledger.respond moment met request).2 := by
  cases met with
  | some failure => exact .refl other ledger
  | none => exact sameOn_answer_apart moment hwithin hapart ledger

theorem isSound_respond (hwithin : request.IsWithin part) (hsound : ledger.IsSound) :
    (ledger.respond moment met request).2.IsSound := by
  cases met with
  | some failure => exact hsound
  | none => exact isSound_answer moment hwithin hsound

end Ledger

namespace Strand

variable {strand : Strand α} {request : Call} {next : request.Answer → Plan Collaborators α}

/-- What the next call of a strand meets. -/
def met (strand : Strand α) (request : Call) (world : World) : Option Failure × World :=
  World.meet strand.stores request (strand.enter world)

theorem met_attends (strand : Strand α) (request : Call) (world : World) :
    (strand.enter world).Attends (strand.met request world).2 := World.attends_meet _ _ _

/-- What a call meets does not change the ground. -/
theorem sameGround_met (strand : Strand α) (request : Call) (world : World) :
    (strand.met request world).2.SameGround world where
  site := (met_attends strand request world).site
  machine := by
    rw [World.machine, (met_attends strand request world).scheduler, World.machine]
    rfl
  waitLimit := (met_attends strand request world).waitLimit

/-- **What the next call of a strand comes to** can be told from the ledger that the world shows:
the answer, what is left of the strand, and the ledger afterwards. The ground stays as it was. -/
theorem advance_eq (hserve : strand.stores.Serve opened) (hshows : world.Shows opened ledger)
    (hplan : strand.plan = .call request next) :
    let met := strand.met request world
    let response := ledger.respond (met.2.moment strand.stores) met.1 request
    ∃ after, strand.advance world = ({ strand with
        plan := next response.1
        faults := met.2.faults
        cancelled := met.2.cancelled }, after) ∧
      after.Shows opened response.2 ∧ after.SameGround world := by
  intro met response
  have hentered := hshows.disregard strand.faults strand.cancelled
  have hattends := met_attends strand request world
  have hground := sameGround_met strand request world
  -- What is met is fixed by cases below, and the response has to follow.
  have hresponse : ∀ fault, met.1 = fault →
      response = ledger.respond (met.2.moment strand.stores) fault request :=
    fun _ hmet => congrArg (fun fault => ledger.respond _ fault request) hmet
  cases hmet : met.1 with
  | some failure =>
    -- the fault is the answer, and the ledger stays
    rw [hresponse _ hmet]
    refine ⟨met.2.bare, ?_, ?_, ⟨hground.site, hground.machine, hground.waitLimit⟩⟩
    · rw [advance_of_call hplan (World.answer_of_met hmet)]
      rfl
    · exact (hattends.shows hentered).disregard [] none
  | none =>
    rw [hresponse _ hmet]
    obtain ⟨after, hanswer, hshown, hbeside⟩ := World.answer_of_unmet hserve hentered hmet
    refine ⟨after.bare, ?_, ?_, ⟨hbeside.site.trans hground.site,
      hbeside.machine.trans hground.machine, hbeside.waitLimit.trans hground.waitLimit⟩⟩
    · rw [advance_of_call hplan hanswer, hbeside.faults, hbeside.cancelled]
      rfl
    · exact hshown.disregard [] none

end Strand

/-! ### Two worlds -/

/-- Two worlds show sound ledgers that are the same on a part. Outside it they may differ in any way
that calls can bring about. -/
structure World.Twins (opened : Opened) (part : Part) (world twin : World)
    (ledger mirror : Ledger) : Prop where
  shows : world.Shows opened ledger
  mirrors : twin.Shows opened mirror
  sound : ledger.IsSound
  mirrorSound : mirror.IsSound
  same : ledger.SameOn part mirror
  ground : world.SameGround twin

/-- Two worlds hold the same of a part, in the same order. -/
def World.HoldSame (opened : Opened) (part : Part) (world twin : World) : Prop :=
  ∃ ledger mirror, world.Shows opened ledger ∧ twin.Shows opened mirror ∧
    ledger.SameOn part mirror

theorem World.Twins.holdSame (h : World.Twins opened part world twin ledger mirror) :
    World.HoldSame opened part world twin := ⟨ledger, mirror, h.shows, h.mirrors, h.same⟩

namespace Strand

variable {strand : Strand α} {results : α → Prop}

/-- In both worlds a strand meets the same, at the same moment. -/
theorem met_eq (strand : Strand α) (request : Call) (hground : world.SameGround twin) :
    (strand.met request world).1 = (strand.met request twin).1 ∧
      (strand.met request world).2.faults = (strand.met request twin).2.faults ∧
      (strand.met request world).2.cancelled = (strand.met request twin).2.cancelled ∧
      (strand.met request world).2.moment strand.stores =
        (strand.met request twin).2.moment strand.stores := by
  obtain ⟨hmet, hfaults, hcancelled⟩ :=
    @World.meet_congr (strand.enter world) (strand.enter twin) strand.stores request rfl rfl
  refine ⟨hmet, hfaults, hcancelled, ?_⟩
  -- The moment is read off the ground and the cancellation, and both are the same.
  have hmetGround : (strand.met request world).2.SameGround (strand.met request twin).2 :=
    (sameGround_met strand request world).trans
      (hground.trans (sameGround_met strand request twin).symm)
  rw [World.moment, World.moment, hmetGround.site, hmetGround.machine, hmetGround.waitLimit,
    World.isCancelled, World.isCancelled]
  rw [show (strand.met request world).2.cancelled = _ from hcancelled]
  rfl

/-- **A strand goes on in the same way in both worlds** if it keeps to the part that is the same in
them, and that part stays the same. -/
theorem advance_twins (hserve : strand.stores.Serve opened)
    (hkeeps : strand.plan.KeepsTo part results)
    (h : World.Twins opened part world twin ledger mirror) :
    (strand.advance world).1 = (strand.advance twin).1 ∧ ∃ moved shifted,
      World.Twins opened part (strand.advance world).2 (strand.advance twin).2 moved shifted := by
  cases hplan : strand.plan with
  | done result =>
    rw [advance_of_done hplan, advance_of_done hplan]
    exact ⟨rfl, ledger, mirror, h⟩
  | call request next =>
    rw [hplan] at hkeeps
    cases hkeeps with
    | call hwithin hsame _ =>
      obtain ⟨after, hadvance, hshown, hground⟩ := advance_eq hserve h.shows hplan
      obtain ⟨after', hadvance', hshown', hground'⟩ := advance_eq hserve h.mirrors hplan
      obtain ⟨hmet, hfaults, hcancelled, hmoment⟩ := strand.met_eq request h.ground
      -- the next call meets the same in both worlds, and is answered alike
      rw [hmet, hfaults, hcancelled, hmoment] at hadvance
      rw [hmet, hmoment] at hshown
      obtain ⟨hnext, hsameAfter⟩ := Ledger.next_respond_eq hwithin hsame h.same h.sound
        h.mirrorSound
      rw [hadvance, hadvance', hnext]
      exact ⟨rfl, _, _, hshown, hshown', Ledger.isSound_respond hwithin h.sound,
        Ledger.isSound_respond hwithin h.mirrorSound, hsameAfter,
        hground.trans (h.ground.trans hground'.symm)⟩

/-- **A strand that keeps to another part is not noticed.** It may fail, be cancelled or meet
faults, and the twin world stays where it is. -/
theorem advance_apart (hserve : strand.stores.Serve opened)
    (hkeeps : strand.plan.KeepsTo other results) (hapart : other.Apart part)
    (h : World.Twins opened part world twin ledger mirror) :
    ∃ moved, World.Twins opened part (strand.advance world).2 twin moved mirror := by
  -- A strand that is done changes nothing at all.
  cases hplan : strand.plan with
  | done result =>
    rw [advance_of_done hplan]
    exact ⟨ledger, h⟩
  | call request next =>
    rw [hplan] at hkeeps
    cases hkeeps with
    | call hwithin _ _ =>
      obtain ⟨after, hadvance, hshown, hground⟩ := advance_eq hserve h.shows hplan
      rw [hadvance]
      -- what lies apart is the same before and after the call
      exact ⟨_, hshown, h.mirrors, Ledger.isSound_respond hwithin h.sound, h.mirrorSound,
        (Ledger.sameOn_respond_apart hwithin hapart).symm.trans h.same, hground.trans h.ground⟩

end Strand

end Rollout
