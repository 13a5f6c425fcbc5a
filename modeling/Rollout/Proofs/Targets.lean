import Rollout.Proofs.Releases

/-!
# Whether scaling reaches its targets

Scaling works from the quantity that the formation holds, not from what is tracked, and a process
takes its new quantity only when all of its instances are placed or withdrawn. If a rejection stops
the work in the middle, the quantity and the tracked instances part, and no later request brings
them together again: a request that comes to its end reaches its targets for those process types
only that had been in step before it (`Session.reaches_target_iff`).

`Session.KeepsPace release name type history` is the exact condition: whenever a deed of the history
leaves the quantity of the process type as it is, it leaves its tracked instances as they are. What
a deed can do to a quantity and to the instances is a `Shift`, so everything follows from the laws
of shifts once a whole request is known to shift each of its process types once
(`Ledger.Scaled.shifted`).
-/

namespace Rollout

/-! ### Requests -/

namespace Ledger

variable {app : String} {blueprint : Blueprint} {release : Release} {calm keep : Prop}
  {request : ScaleRequest} {ledger after : Ledger} {formation scaled : Formation}
  {type stop : String}
  {count target : Nat}

/-- Nothing happened to the count of a process type nor to its tracked instances. -/
structure Untouched (release : Release) (type : String) (ledger : Ledger) (formation : Formation)
    (after : Ledger) (scaled : Formation) : Prop where
  count : scaled.count? type = formation.count? type
  instances : ∀ ordinal,
    HasInstance release type after.tracked ordinal ↔ HasInstance release type ledger.tracked ordinal

/-- **A request leaves alone what it does not name.** Its tracked instances and its count are the
same as before. -/
theorem Scaled.untouched (h : Scaled app blueprint request ledger formation after scaled)
    (hsound : ledger.IsSound) (happ : blueprint.release.app = .text app)
    (hformation : formation.IsTyped) (hfits : ∀ entry ∈ request, CellNumber.fits entry.2 = true)
    {type : String} (hnot : type ∉ request.map (·.1)) :
    Untouched blueprint.release type ledger formation after scaled := by
  induction h with
  | nil => exact ⟨rfl, fun _ => Iff.rfl⟩
  | skip _ _ ih =>
    exact ih hsound hformation (fun entry hmem => hfits entry (List.mem_cons_of_mem _ hmem))
      fun hmem => hnot (List.mem_cons_of_mem _ hmem)
  | @cons first command target current rest ledger moved _ formation _ process row hknown hcommand
      hquantity hadjusted hrow hrest ih =>
    have hne : type ≠ first := fun heq => hnot (heq ▸ List.mem_cons_self)
    obtain ⟨hsame, hinstances⟩ := ih (hadjusted.isSound_want happ hsound row)
      (hformation.scaled hknown (hfits _ List.mem_cons_self) app)
      (fun entry hmem => hfits entry (List.mem_cons_of_mem _ hmem))
      fun hmem => hnot (List.mem_cons_of_mem _ hmem)
    -- moving the instances of one type does not touch those of another
    obtain ⟨-, hothers⟩ := hadjusted.reached hsound happ
    refine ⟨?_, fun ordinal => (hinstances ordinal).trans (hothers type hne ordinal)⟩
    rw [hsame, Formation.count?_replace (.text app) hknown target, if_neg hne]

/-- **A request shifts a process type that it names to its target.** -/
theorem Scaled.shifted (h : Scaled app blueprint request ledger formation after scaled)
    (hsound : ledger.IsSound) (happ : blueprint.release.app = .text app)
    (hformation : formation.IsTyped) (hfits : ∀ entry ∈ request, CellNumber.fits entry.2 = true)
    (hdistinct : (request.map (·.1)).Nodup) {type : String} {target count : Nat}
    (hmem : (type, target) ∈ request) (hcount : formation.count? type = some count) :
    scaled.count? type = some target ∧
      Shift True count (HasInstance blueprint.release type ledger.tracked) target
        (HasInstance blueprint.release type after.tracked) := by
  obtain ⟨first, rest, rfl, hfirst, hrest⟩ := exists_split_of_mem hdistinct hmem
  obtain ⟨middle, between, hbefore, hlater⟩ := h.split
  have hfits₁ : ∀ entry ∈ first, CellNumber.fits entry.2 = true :=
    fun entry hentry => hfits entry (List.mem_append_left _ hentry)
  have hfits₂ : ∀ entry ∈ rest, CellNumber.fits entry.2 = true :=
    fun entry hentry => hfits entry (List.mem_append_right _ (List.mem_cons_of_mem _ hentry))
  have htyped := hbefore.isTyped hfits₁ hformation
  have hmiddle := isSound_of_moves (hbefore.moves happ) hsound
  -- up to its own entry the process type is left alone
  obtain ⟨hsame, hinstances⟩ := hbefore.untouched hsound happ hformation hfits₁ hfirst
  rw [← hsame] at hcount
  obtain ⟨known, hknown', hquantity'⟩ := Formation.count?_eq_some.mp hcount
  cases hlater with
  | skip hunknown _ =>
    rw [hunknown] at hknown'
    cases hknown'
  | @cons _ command _ current _ _ moved _ _ _ process row hknown hcommand hquantity hadjusted hrow
      hafter =>
    rw [hknown] at hknown'
    obtain rfl := Option.some.inj hknown'
    rw [hquantity] at hquantity'
    obtain rfl := Quantity.whole.inj hquantity'
    obtain ⟨hown, -⟩ := hadjusted.reached hmiddle happ
    -- and from then on it is left alone again
    obtain ⟨hsame', hinstances'⟩ := hafter.untouched (hadjusted.isSound_want happ hmiddle row) happ
      (htyped.scaled hknown (hfits _ hmem) app) hfits₂ hrest
    refine ⟨?_, hown.congr (fun ordinal => (hinstances ordinal).symm) hinstances'⟩
    rw [hsame', Formation.count?_replace (.text app) hknown target, if_pos rfl]

/-- Where a request was stopped, all process types but the one of the entry are left alone. -/
theorem Stopped.untouched
    (h : Stopped app blueprint calm keep stop target ledger formation after scaled)
    (hsound : ledger.IsSound) (happ : blueprint.release.app = .text app) (hne : type ≠ stop) :
    Untouched blueprint.release type ledger formation after scaled := by
  cases h with
  | broken _ _ _ hbroken => exact ⟨rfl, (hbroken.reached hsound happ).2 type hne⟩
  | unkept hknown _ _ hadjusted _ =>
    refine ⟨?_, (hadjusted.reached hsound happ).2 type hne⟩
    rw [Formation.count?_replace (.text app) hknown target, if_neg hne]

/-- A process type whose count was counted before has a count again, and was shifted. -/
def Paced (release : Release) (type : String) (ledger : Ledger) (before : Option Nat)
    (moved : Ledger)
    (after : Option Nat) : Prop :=
  ∀ count, before = some count → ∃ reached, after = some reached ∧
    Shift False count (HasInstance release type ledger.tracked) reached
      (HasInstance release type moved.tracked)

theorem Untouched.paced (h : Untouched release type ledger formation after scaled) :
    Paced release type ledger (formation.count? type) after (scaled.count? type) := by
  intro count hcount
  exact ⟨count, h.count.trans hcount, .refl h.instances⟩

theorem Untouched.paced_trans {moved : Ledger} {reached : Option Nat}
    (h : Untouched release type ledger formation after scaled)
    (h' : Paced release type after (scaled.count? type) moved reached) :
    Paced release type ledger (formation.count? type) moved reached := by
  intro count hcount
  obtain ⟨final, hfinal, hshift⟩ := h' count (h.count.trans hcount)
  exact ⟨final, hfinal, hshift.congr (fun ordinal => (h.instances ordinal).symm) fun _ => Iff.rfl⟩

theorem Paced.trans_untouched {moved : Ledger} {before : Option Nat}
    (h : Paced release type moved before ledger (formation.count? type))
    (h' : Untouched release type ledger formation after scaled) :
    Paced release type moved before after (scaled.count? type) := by
  intro count hcount
  obtain ⟨reached, hreached, hshift⟩ := h count hcount
  exact ⟨reached, h'.count.trans hreached, hshift.congr (fun _ => Iff.rfl) h'.instances⟩

/-- A request shifts each process type at most once. -/
theorem Scaled.paced (h : Scaled app blueprint request ledger formation after scaled)
    (hsound : ledger.IsSound) (happ : blueprint.release.app = .text app)
    (hformation : formation.IsTyped) (hfits : ∀ entry ∈ request, CellNumber.fits entry.2 = true)
    (hdistinct : (request.map (·.1)).Nodup) (type : String) :
    Paced blueprint.release type ledger (formation.count? type) after (scaled.count? type) := by
  by_cases hmem : type ∈ request.map (·.1)
  · obtain ⟨⟨named, target⟩, hentry, rfl⟩ := List.mem_map.mp hmem
    intro count hcount
    obtain ⟨hreached, hshift⟩ := h.shifted hsound happ hformation hfits hdistinct hentry hcount
    exact ⟨target, hreached, hshift.imp False.elim⟩
  · exact (h.untouched hsound happ hformation hfits hmem).paced

/-- Where a request was stopped, the process type of the entry was shifted, though perhaps not all
the way. -/
theorem Stopped.paced (h : Stopped app blueprint calm keep stop target ledger formation after
    scaled) (hsound : ledger.IsSound) (happ : blueprint.release.app = .text app) :
    Paced blueprint.release stop ledger (formation.count? stop) after (scaled.count? stop) := by
  intro count hcount
  cases h with
  | broken hknown _ hquantity hbroken =>
    have hcurrent := Formation.count?_eq_some.mpr ⟨_, hknown, hquantity⟩
    rw [hcurrent] at hcount
    obtain rfl := Option.some.inj hcount
    exact ⟨_, hcurrent, (hbroken.reached hsound happ).1⟩
  | unkept hknown _ hquantity hadjusted _ =>
    rw [Formation.count?_eq_some.mpr ⟨_, hknown, hquantity⟩] at hcount
    obtain rfl := Option.some.inj hcount
    refine ⟨target, ?_, (hadjusted.reached hsound happ).1.imp False.elim⟩
    rw [Formation.count?_replace (.text app) hknown target, if_pos rfl]

/-- **A request that was stopped shifts each process type at most once**, since the entry at which
it was stopped is the only one of its type. -/
theorem Scaled.paced_stopped {middle : Ledger} {between : Formation} {tail : ScaleRequest}
    (h : Scaled app blueprint request ledger formation middle between)
    (h' : Stopped app blueprint calm keep stop target middle between after scaled)
    (hsound : ledger.IsSound) (happ : blueprint.release.app = .text app)
    (hformation : formation.IsTyped) (hfits : ∀ entry ∈ request, CellNumber.fits entry.2 = true)
    (hdistinct : ((request ++ (stop, target) :: tail).map (·.1)).Nodup) (type : String) :
    Paced blueprint.release type ledger (formation.count? type) after (scaled.count? type) := by
  rw [List.map_append, List.nodup_append] at hdistinct
  obtain ⟨hdone, -, hapart⟩ := hdistinct
  have hmiddle := isSound_of_moves (h.moves happ) hsound
  by_cases heq : type = stop
  · subst heq
    have hnot : type ∉ request.map (·.1) := fun hmem => hapart type hmem type List.mem_cons_self rfl
    exact (h.untouched hsound happ hformation hfits hnot).paced_trans
      (h'.paced hmiddle happ)
  · exact (h.paced hsound happ hformation hfits hdone type).trans_untouched
      (h'.untouched hmiddle happ heq)

end Ledger

/-! ### Deeds on one release -/

/-- The request names each process type once. Whoever hands in a mapping of texts cannot do
otherwise. -/
def DistinctTypes (quantities : List (Value × Value)) : Prop :=
  ∀ request, ScaleRequest.ofEntries quantities = .ok request → (request.map (·.1)).Nodup

/-- The deed scales the release and the formation of the name, or sets the task of the number going,
or lays faults in wait that leave the job store and the event log alone. -/
def Deed.IsScaling (app : String) (blueprint : Blueprint) (number : Nat) (name : Value) :
    Deed → Prop
  | .scale other quantities called => other = blueprint ∧ called = name ∧
      World.FitQuantities quantities ∧ DistinctTypes quantities
  | .start other | .elapse other | .cancel other => other = number
  | .arm faults => (Deed.arm faults).IsLegal app
  | .define _ _ | .release _ _ => False

namespace Session

open Ledger

variable {app : String} {opened : Opened} {session after : Session} {ledger moved : Ledger}
  {blueprint : Blueprint} {version : Int} {number : Nat} {name : Value} {type : String}

/-- How many instances of a process type the formation of the name wants. -/
def count? (session : Session) (name : Value) (type : String) : Option Nat := do
  (← session.formation? name).count? type

theorem count?_of_formation? {formation : Formation}
    (h : session.formation? name = some formation) :
    session.count? name type = formation.count? type := by
  rw [count?, h]
  rfl

theorem count?_congr (h : after.formations = session.formations) :
    after.count? name type = session.count? name type := by
  rw [count?, formation?, h]
  rfl

/-- Whenever a deed leaves the count of a process type as it is, it leaves its instances as they
are. -/
def KeepsPace (release : Release) (name : Value) (type : String) : List Deed → Session → Prop
  | [], _ => True
  | deed :: rest, session =>
    ((session.afterDeed deed).count? name type = session.count? name type →
      ∀ ordinal, HasInstance release type (session.afterDeed deed).tracked ordinal ↔
        HasInstance release type session.tracked ordinal) ∧
    KeepsPace release name type rest (session.afterDeed deed)

/-- **What scaling a release does to its process types**: each is shifted at most once, and if the
request comes to its end, those that it names are shifted to their targets. -/
theorem Spares.afterScale (h : session.Spares app opened version number ledger)
    (hblueprint : blueprint.IsTyped app) {quantities : List (Value × Value)}
    (hfits : World.FitQuantities quantities) (hdistinct : DistinctTypes quantities)
    {result : Except Failure Unit}
    (hrun : session.perform (Step.scale blueprint quantities name) = (result, after)) :
    ∃ moved, after.Spares app opened version number moved ∧
      (∀ type, Paced blueprint.release type ledger (session.count? name type) moved
        (after.count? name type)) ∧
      (result = .ok () → ∀ request, ScaleRequest.ofEntries quantities = .ok request →
        ∀ type target, (type, target) ∈ request → ∀ count, session.count? name type = some count →
          Shift True count (HasInstance blueprint.release type ledger.tracked) target
            (HasInstance blueprint.release type moved.tracked)) := by
  obtain ⟨moved, horder, -, -, htasks, hcase⟩ :=
    perform_scale_cases h.toInOrder hblueprint hfits hrun
  refine ⟨moved, ⟨horder, by rw [htasks]; exact h.foreign⟩, ?_⟩
  rcases hcase with ⟨hnone, rfl, -⟩ | ⟨formation, scaled, hformation, hscaled, hcase⟩
  · -- without a formation there is nothing to scale
    refine ⟨fun type count hcount => ?_, fun hok => nomatch hok⟩
    rw [count?, hnone] at hcount
    cases hcount
  have htyped := h.toInOrder.isTyped_formation hformation
  simp only [count?_of_formation? hformation, count?_of_formation? hscaled]
  rcases hcase with ⟨issues, -, rfl, rfl, rfl⟩ | ⟨request, done, rest, middle, between,
      hrequest, rfl, hdone, hend⟩
  · -- a request that is not valid touches nothing
    exact ⟨fun type => Untouched.paced ⟨rfl, fun _ => Iff.rfl⟩, fun hok => nomatch hok⟩
  have hnodup := hdistinct _ hrequest
  have hdoneFits : ∀ entry ∈ done, CellNumber.fits entry.2 = true :=
    fun entry hmem => hfits _ hrequest entry (List.mem_append_left _ hmem)
  rcases hend with ⟨rfl, rfl, rfl, rfl⟩ | ⟨stop, target, tail, failure, rfl, rfl, hstopped⟩
  · rw [List.append_nil] at hnodup hrequest
    refine ⟨hdone.paced h.sound hblueprint.app htyped hdoneFits hnodup,
      fun _ request hrequest' type target hentry count hcount => ?_⟩
    rw [hrequest] at hrequest'
    obtain rfl := Except.ok.inj hrequest'
    exact (hdone.shifted h.sound hblueprint.app htyped hdoneFits hnodup hentry hcount).2
  · -- the types before the one that stopped it reached their targets, and those after it are
    -- untouched
    exact ⟨hdone.paced_stopped hstopped h.sound hblueprint.app htyped hdoneFits hnodup,
      fun hok => nomatch hok⟩

/-- **Every deed shifts a process type at most once.** A request names it once at most, since the
keys of a mapping are distinct. -/
theorem Spares.afterDeed (h : session.Spares app opened version number ledger)
    (hblueprint : blueprint.IsTyped app) (hversion : blueprint.release.version = .int version)
    {deed : Deed} (hdeed : deed.IsScaling app blueprint number name) :
    ∃ moved, (session.afterDeed deed).Spares app opened version number moved ∧
      ∀ type, Paced blueprint.release type ledger (session.count? name type) moved
        ((session.afterDeed deed).count? name type) := by
  -- a task retires jobs of other versions only
  have htask (hdeed : deed.task? = some number) : ∃ moved,
      (session.afterDeed deed).Spares app opened version number moved ∧
        ∀ type, Paced blueprint.release type ledger (session.count? name type) moved
          ((session.afterDeed deed).count? name type) := by
    obtain ⟨gone, hgone, hspares, -, hformations⟩ := h.afterTaskDeed hdeed
    refine ⟨_, hspares, fun type count hcount => ⟨count, ?_, .refl fun ordinal => ?_⟩⟩
    · rw [count?_congr hformations]
      exact hcount
    · exact hasInstance_retireAll_foreign hblueprint.app hversion hgone ordinal
  cases deed with
  | define | release => exact hdeed.elim
  | start | elapse | cancel => exact htask (congrArg some hdeed)
  | arm faults =>
    refine ⟨ledger, ⟨h.toInOrder.arm hdeed, h.foreign⟩, fun type count hcount =>
      ⟨count, hcount, ?_⟩⟩
    exact .refl fun _ => Iff.rfl
  | scale other quantities called =>
    obtain ⟨rfl, rfl, hfits, hdistinct⟩ := hdeed
    have hrun : session.perform (Step.scale other quantities called) =
        ((session.perform (Step.scale other quantities called)).1,
          session.afterDeed (.scale other quantities called)) := rfl
    obtain ⟨moved, hspares, hpaced, -⟩ := h.afterScale hblueprint hfits hdistinct hrun
    exact ⟨moved, hspares, hpaced⟩

/-- **Along a history**: what is out of step stays so, and what is in step stays so exactly as long
as count and instances keep pace. -/
theorem Spares.follow (h : session.Spares app opened version number ledger)
    (hblueprint : blueprint.IsTyped app) (hversion : blueprint.release.version = .int version)
    {history : List Deed} (hscaling : ∀ deed ∈ history, deed.IsScaling app blueprint number name)
    {count : Nat} (hcount : session.count? name type = some count) :
    ∃ last reached, (session.follow history).Spares app opened version number last ∧
      (session.follow history).count? name type = some reached ∧
      (¬IsRange count (HasInstance blueprint.release type ledger.tracked) →
        ¬IsRange reached (HasInstance blueprint.release type last.tracked)) ∧
      (IsRange count (HasInstance blueprint.release type ledger.tracked) →
        (IsRange reached (HasInstance blueprint.release type last.tracked) ↔
          session.KeepsPace blueprint.release name type history)) := by
  induction history generalizing session ledger count with
  | nil => exact ⟨ledger, count, h, hcount, id, fun hrange => iff_of_true hrange trivial⟩
  | cons deed rest ih =>
    obtain ⟨moved, hspares, hpaced⟩ := h.afterDeed hblueprint hversion
      (hscaling deed List.mem_cons_self)
    obtain ⟨reached, hreached, hshift⟩ := hpaced type count hcount
    obtain ⟨last, final, hlast, hfinal, hout, hin⟩ := ih hspares
      (fun other hmem => hscaling other (List.mem_cons_of_mem _ hmem)) hreached
    refine ⟨last, final, hlast, hfinal, fun hnot => hout (hshift.not_isRange hnot),
      fun hrange => ?_⟩
    -- the first deed keeps what is in step exactly if it moves count and instances alike
    have hstep := hshift.isRange_iff hrange
    have hkeeps : session.KeepsPace blueprint.release name type (deed :: rest) ↔
        IsRange reached (HasInstance blueprint.release type moved.tracked) ∧
          (session.afterDeed deed).KeepsPace blueprint.release name type rest := by
      rw [KeepsPace, hreached, hcount, Option.some.injEq, hspares.toInOrder.tracked_eq,
        h.toInOrder.tracked_eq, hstep]
    rw [hkeeps]
    -- what fell out of step with the first deed stays so with all others
    by_cases hkept : IsRange reached (HasInstance blueprint.release type moved.tracked)
    · rw [and_iff_right hkept]
      exact hin hkept
    · exact iff_of_false (hout hkept) fun hboth => hkept hboth.1

/-- **A request that comes to its end reaches a target exactly if the process type was in step.**
Let a version be fresh, and its release be rolled out with a keyed formation. Let requests follow,
with rejections anywhere, while the cleanup is left alone or not. If then a request comes to its
end, a known process type that it names has exactly the instances from one up to its target if and
only if no deed before had moved its instances without its count. -/
theorem reaches_target_iff {rolled last : Session} {formation : Formation} {process : ProcessType}
    (hstart : session.InOrder app opened ledger) (hblueprint : blueprint.IsTyped app)
    (hversion : blueprint.release.version = .int version) (hfresh : session.IsFresh app version)
    (hformation : session.formation? name = some formation) (hkeyed : formation.IsKeyed)
    (hrolled : session.perform (Step.rollOut blueprint name) = (.ok number, rolled))
    {history : List Deed} (hscaling : ∀ deed ∈ history, deed.IsScaling app blueprint number name)
    {quantities : List (Value × Value)} {request : ScaleRequest}
    (hrequest : ScaleRequest.ofEntries quantities = .ok request)
    (hfits : World.FitQuantities quantities) (hdistinct : DistinctTypes quantities)
    (hscaled : (rolled.follow history).perform (Step.scale blueprint quantities name) =
      (.ok (), last))
    (hknown : formation.process? type = some process) {target : Nat}
    (hentry : (type, target) ∈ request) :
    IsRange target (HasInstance blueprint.release type last.tracked) ↔
      rolled.KeepsPace blueprint.release name type history := by
  obtain ⟨_, launched, hformation', hformations, -, hlaunched⟩ :=
    hfresh.launched hstart hblueprint hrolled
  rw [hformation] at hformation'
  obtain rfl := Option.some.inj hformation'
  have htyped := hstart.isTyped_formation hformation
  obtain ⟨count, hcount, -⟩ := htyped.exists_count? hknown
  have hinitial : rolled.count? name type = some count := by
    rw [count?_congr hformations, count?_of_formation? hformation, hcount]
  -- the rollout leaves the process type in step
  have hrange : IsRange count (HasInstance blueprint.release type launched.tracked) := by
    intro ordinal
    rw [hlaunched.hasInstance_iff hstart.sound hblueprint hversion htyped hkeyed, hcount]
    exact ⟨fun ⟨_, heq, hlies⟩ => Option.some.inj heq ▸ hlies, fun hlies => ⟨count, rfl, hlies⟩⟩
  obtain ⟨before, reached, hspares, hreached, hout, hin⟩ :=
    hlaunched.spares.follow hblueprint hversion hscaling hinitial
  obtain ⟨moved, hspares', -, hshifted⟩ := hspares.afterScale hblueprint hfits hdistinct hscaled
  have hshift := hshifted rfl request hrequest type target hentry reached hreached
  rw [← hin hrange, hspares'.toInOrder.tracked_eq]
  constructor
  · intro hreachedTarget
    by_contra hnot
    exact hshift.not_isRange hnot hreachedTarget
  · exact hshift.isRange trivial

/-- A session with a formation of one instance. -/
def ready : Session := fresh.afterDeed (.define (.text "formation") (.web 1))

theorem ready_inOrder : ready.InOrder "web" freshlyOpened ⟨[], [], []⟩ :=
  (fresh_inOrder "web").keepFormation _ (Formation.isTyped_web (by decide +kernel))

theorem ready_isFresh (version : Int) : ready.IsFresh "web" version := by
  have hnone : ready.tracked = [] := by decide +kernel
  intro given hmem
  rw [hnone] at hmem
  cases hmem

/-- The session in which a release was rolled out there. -/
def launched : Session := (ready.perform (Step.rollOut (.web 3) (.text "formation"))).2

/-- A request for one process type. -/
def requesting (target : Nat) : List (Value × Value) := [(.text "web", .int target)]

theorem ofEntries_requesting (target : Nat) :
    ScaleRequest.ofEntries (requesting target) = .ok [("web", target)] := rfl

/-- Such a request fits, as long as its target is an integer of 64 bits. -/
theorem fitQuantities_requesting {target : Nat} (h : CellNumber.fits target = true) :
    World.FitQuantities (requesting target) := by
  intro request hrequest entry hmem
  rw [ofEntries_requesting] at hrequest
  rw [← Except.ok.inj hrequest, List.mem_singleton] at hmem
  rw [hmem]
  exact h

theorem distinctTypes_requesting (target : Nat) : DistinctTypes (requesting target) := by
  intro request hrequest
  rw [ofEntries_requesting] at hrequest
  rw [← Except.ok.inj hrequest]
  exact List.nodup_singleton _

/-- A request for three instances, of which one is rejected. -/
def rejecting (name : String) : List Deed :=
  [.arm [.rejecting .schedule name], .scale (.web 3) (requesting 3) (.text "formation"), .arm []]

/-- Such deeds are deeds of scaling. -/
theorem isScaling_rejecting (rejected : String) :
    ∀ deed ∈ rejecting rejected, deed.IsScaling "web" (.web 3) 0 (.text "formation") := by
  have hspared : (Deed.arm [.rejecting .schedule rejected]).IsLegal "web" :=
    Deed.isLegal_rejecting (by decide) rejected "web"
  rw [rejecting]
  simp only [List.forall_mem_cons]
  exact ⟨hspared,
    ⟨rfl, rfl, fitQuantities_requesting (by decide +kernel), distinctTypes_requesting 3⟩,
    (fun _ hmem => nomatch hmem), fun _ hmem => nomatch hmem⟩

/-- If the very first instance is rejected, nothing gets out of step, and the next request reaches
its target. -/
theorem reaches_target_after_rejection :
    IsRange 2 (HasInstance (Blueprint.web 3).release "web"
      ((launched.follow (rejecting "web.3.web.2")).afterDeed
        (.scale (.web 3) (requesting 2) (.text "formation"))).tracked) := by
  refine (reaches_target_iff ready_inOrder (Blueprint.isTyped_web (by decide +kernel)) rfl
    (ready_isFresh 3) rfl (Formation.isKeyed_web 1) (perform_eq_of_toOption (by decide +kernel))
    (isScaling_rejecting "web.3.web.2") (ofEntries_requesting 2)
    (fitQuantities_requesting (by decide +kernel)) (distinctTypes_requesting 2)
    (perform_eq_of_toOption (by decide +kernel)) rfl List.mem_cons_self).mpr ?_
  -- each of the three deeds leaves the tracked names as they are
  have hsame {before after : Session} (h : after.tracked = before.tracked) (ordinal : Int) :
      HasInstance (Blueprint.web 3).release "web" after.tracked ordinal ↔
        HasInstance (Blueprint.web 3).release "web" before.tracked ordinal := by
    rw [h]
  exact ⟨fun _ => hsame (by decide +kernel), fun _ => hsame (by decide +kernel),
    fun _ => hsame (by decide +kernel), trivial⟩

/-- **A request that comes to its end does not always reach its target.** If the third instance is
rejected the second one stays, but the count is still one; a request for one instance then has
nothing to do. -/
theorem not_reaches_target_drifting :
    ready.IsFresh "web" 3 ∧
      ready.perform (Step.rollOut (.web 3) (.text "formation")) = (.ok 0, launched) ∧
      (∀ deed ∈ rejecting "web.3.web.3", deed.IsScaling "web" (.web 3) 0 (.text "formation")) ∧
      (launched.follow (rejecting "web.3.web.3")).perform
          (Step.scale (.web 3) (requesting 1) (.text "formation")) =
        (.ok (), (launched.follow (rejecting "web.3.web.3")).afterDeed
          (.scale (.web 3) (requesting 1) (.text "formation"))) ∧
      ¬IsRange 1 (HasInstance (Blueprint.web 3).release "web"
        ((launched.follow (rejecting "web.3.web.3")).afterDeed
          (.scale (.web 3) (requesting 1) (.text "formation"))).tracked) := by
  refine ⟨ready_isFresh 3, perform_eq_of_toOption (by decide +kernel), isScaling_rejecting _,
    perform_eq_of_toOption (by decide +kernel), fun hrange => ?_⟩
  have hname :=
    @JobName.text?_of_isValid ⟨"web", 3, "web", 2⟩ ⟨rfl, rfl⟩ (by decide +kernel)
  have hsecond := (hrange 2).mp ⟨_, hname, by decide +kernel⟩
  exact absurd hsecond.2 (by decide)

end Session

end Rollout
