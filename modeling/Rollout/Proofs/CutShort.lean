import Rollout.Proofs.Drift
import Rollout.Proofs.StruckScaling
import Rollout.Proofs.Targets

/-!
# Scaling that is cut short

A request that a fault strikes ends with the failure of the fault. What it leaves is told by
`Ledger.CutShort`: the process types before the one in question are done, the one in question stands
where the call left it that was struck, and everything else is as it was before.

The proof goes along the request. It starts from scheduler and job store being level with the
formation (`Ledger.IsLevel`), which bringing a process type to its target preserves
(`IsLevel.scaled`). The entry where the fault strikes is the base (`CutShort.here`); an entry that
was done is put in front of what the rest leaves (`CutShort.prepend`), and one that the formation
does not know makes no difference (`CutShort.skip`).

`World.scale_cutShort` is the result for a world with faults of any kind. The two sides agree
afterwards as they did before, apart from the one instance that was struck between its two calls.
-/

namespace Rollout

open Scale World

namespace Ledger

variable {ledger after start : Ledger} {app type : String} {release : Release}
  {process : ProcessType} {current target : Nat}

/-! ### A whole request -/

/-- Each process type that the formation knows counts its instances, and those are the ones that are
tracked and scheduled. It is what an operation that was not disturbed leaves, and where the next one
starts. -/
def IsLevel (release : Release) (formation : Formation) (ledger : Ledger) : Prop :=
  ∀ type process, formation.process? type = some process → ∃ count,
    process.quantity = .whole count ∧ IsRange count (HasInstance release type ledger.tracked) ∧
      IsRange count (HasInstance release type ledger.scheduled)

/-- Where a request was cut short: the entry in question with what comes before and after it, and
how far each of the three accounts of its instances has come. -/
structure Cut where
  /-- The entries before the one in question. -/
  done : ScaleRequest
  /-- The process type in question. -/
  type : String
  target : Nat
  rest : ScaleRequest
  /-- The quantity that the process had. -/
  current : Nat
  tracked : Nat
  scheduled : Nat
  /-- The quantity that the process has now. -/
  quantity : Nat

namespace Cut

/-- The process type was brought to the target before the request was cut short. Types that the
formation does not know are passed over, and are not among these. -/
def Completes (cut : Cut) (formation : Formation) (type : String) (target : Nat) : Prop :=
  (type, target) ∈ cut.done ∧ (formation.process? type).isSome = true

/-- The request came as far as the process type. The one in question counts, although it may not
have been changed at all. -/
def Reaches (cut : Cut) (formation : Formation) (type : String) : Prop :=
  type = cut.type ∨ ∃ target, cut.Completes formation type target

/-- The same place after one entry more. -/
def following (entry : String × Nat) (cut : Cut) : Cut := { cut with done := entry :: cut.done }

theorem completes_following {entry : String × Nat} {cut : Cut} {formation : Formation}
    {type : String} {target : Nat} : (cut.following entry).Completes formation type target ↔
      ((type, target) = entry ∧ (formation.process? type).isSome = true) ∨
        cut.Completes formation type target := by
  rw [Completes, Completes, following, List.mem_cons, or_and_right]

end Cut

/-- What a request leaves that was cut short at a call. The entries before the struck one are done,
those behind it are not begun, and of the struck one there is the residue of the call. -/
structure CutShort (app : String) (release : Release) (request : ScaleRequest) (ledger : Ledger)
    (formation : Formation) (call : Call) (after : Ledger) (scaled : Formation) (cut : Cut) :
    Prop where
  split : request = cut.done ++ (cut.type, cut.target) :: cut.rest
  known : formation.count? cut.type = some cut.current
  struck : StruckAt release cut.type cut.current cut.target call cut.tracked cut.scheduled
    cut.quantity
  /-- The process type in question stands where it was left. -/
  tracked : IsRange cut.tracked (HasInstance release cut.type after.tracked)
  scheduled : IsRange cut.scheduled (HasInstance release cut.type after.scheduled)
  quantity : scaled.count? cut.type = some cut.quantity
  /-- What was wanted of it is still written down. -/
  row : after.processes.filter (ProcessRow.isOf app cut.type) =
    ledger.processes.filter (ProcessRow.isOf app cut.type)
  /-- The process types before it are done. -/
  complete : ∀ type target, cut.Completes formation type target →
    IsRange target (HasInstance release type after.tracked) ∧
    IsRange target (HasInstance release type after.scheduled) ∧
    scaled.count? type = some target ∧ IsWanted app type target after
  /-- All other process types are as they were. -/
  others : ∀ type, ¬cut.Reaches formation type → scaled.process? type = formation.process? type
  /-- So is all that is under names of other instances, or of other releases. -/
  names : ∀ name, (∀ type n, cut.Reaches formation type → instanceName? release type n ≠ .ok name) →
    SameUnder name ledger after
  /-- So is what is written down about other process types, or for other applications. -/
  rows : ∀ owner type, (owner = app → ∀ target, ¬cut.Completes formation type target) →
    after.processes.filter (ProcessRow.isOf owner type) =
      ledger.processes.filter (ProcessRow.isOf owner type)

/-- What is wanted depends on the rows about the process type. -/
theorem IsWanted.of_filter_eq (h : IsWanted app type target ledger)
    (hrows : after.processes.filter (ProcessRow.isOf app type) =
      ledger.processes.filter (ProcessRow.isOf app type)) : IsWanted app type target after := by
  -- A quantity is wanted if one of the rows about the process type says so.
  have hmem (ledger : Ledger) (cell : Cell) :
      (app, type, cell) ∈ ledger.processes.map (fun row => (row.app, row.type, row.quantity)) ↔
        ∃ row ∈ ledger.processes.filter (ProcessRow.isOf app type), row.quantity = cell := by
    simp only [List.mem_map, List.mem_filter, ProcessRow.isOf, Prod.mk.injEq, Bool.and_eq_true,
      decide_eq_true_eq, and_assoc]
  intro cell
  rw [← h cell, hmem, hmem, hrows]

namespace CutShort

variable {request rest : ScaleRequest} {formation scaled : Formation} {call : Call} {cut : Cut}
  {moved : Ledger} {row : ProcessRow} {other : String}

theorem type_mem (h : CutShort app release request ledger formation call after scaled cut) :
    cut.type ∈ request.map (·.1) := by
  rw [h.split, List.map_append]
  exact List.mem_append_right _ List.mem_cons_self

theorem mem_of_done (h : CutShort app release request ledger formation call after scaled cut)
    {kind : String} {aim : Nat} (hmem : (kind, aim) ∈ cut.done) : kind ∈ request.map (·.1) := by
  rw [h.split, List.map_append]
  exact List.mem_append_left _ (List.mem_map_of_mem (f := (·.1)) hmem)

/-- An instance of another process type keeps its name to itself. -/
theorem sameUnder_of_not_reaches
    (h : CutShort app release request ledger formation call after scaled cut)
    (hother : ¬cut.Reaches formation other) {name : String} {ordinal : Int}
    (hname : JobName.text? release.app release.version (.text other) (.int ordinal) = .ok name) :
    SameUnder name ledger after := by
  refine h.names name fun type n hreaches hinstance => hother ?_
  -- A name tells its process type, and that one was not reached.
  obtain ⟨-, -, htype, -⟩ := JobName.fields_of_text? hname hinstance
  exact Value.text.inj htype ▸ hreaches

/-- Instances of a process type that the request did not come to are as they were. -/
theorem hasInstance_iff
    (h : CutShort app release request ledger formation call after scaled cut)
    (hother : ¬cut.Reaches formation other) (ordinal : Int) :
    (HasInstance release other after.tracked ordinal ↔
      HasInstance release other ledger.tracked ordinal) ∧
    (HasInstance release other after.scheduled ordinal ↔
      HasInstance release other ledger.scheduled ordinal) :=
  ⟨exists_congr fun _ => and_congr_right fun hname =>
      (h.sameUnder_of_not_reaches hother hname).mem_tracked,
    exists_congr fun _ => and_congr_right fun hname =>
      (h.sameUnder_of_not_reaches hother hname).mem_scheduled⟩

/-- **The request is cut short at its first entry.** -/
theorem here {tracked scheduled quantity : Nat} {result : ProcessType}
    (hknown : formation.process? type = some process)
    (hquantity : process.quantity = .whole current)
    (hat : StruckAt release type current target call tracked scheduled quantity)
    (hbrought : Brought release type ledger tracked scheduled after)
    (hresult : result.quantity = .whole quantity) :
    CutShort app release ((type, target) :: rest) ledger formation call after
      (formation.replace type result)
      ⟨[], type, target, rest, current, tracked, scheduled, quantity⟩ where
  split := rfl
  known := Formation.count?_of_process? hknown hquantity
  struck := hat
  tracked := hbrought.tracked
  scheduled := hbrought.scheduled
  quantity := Formation.count?_of_process?
    (by rw [Formation.process?_replace, if_pos rfl, hknown]; rfl) hresult
  row := by rw [hbrought.processes]
  complete := fun _ _ hcompletes => nomatch hcompletes.1
  others := fun other hother => by
    rw [Formation.process?_replace, if_neg fun heq => hother (.inl heq)]
  names := fun name hname => hbrought.names name fun n => hname type n (.inl rfl)
  rows := fun owner type _ => by rw [hbrought.processes]

/-- An entry of a process type that the formation does not know makes no difference. -/
theorem skip (h : CutShort app release rest ledger formation call after scaled cut)
    (hunknown : formation.process? type = none) :
    CutShort app release ((type, target) :: rest) ledger formation call after scaled
      (cut.following (type, target)) := by
  -- an unknown process type is neither completed nor reached
  have hcompletes (kind : String) (aim : Nat) :
      (cut.following (type, target)).Completes formation kind aim ↔
        cut.Completes formation kind aim := by
    rw [Cut.completes_following]
    refine or_iff_right fun ⟨heq, hknown⟩ => ?_
    rw [(Prod.mk.inj heq).1, hunknown] at hknown
    cases hknown
  have hreaches (kind : String) : (cut.following (type, target)).Reaches formation kind ↔
      cut.Reaches formation kind := or_congr Iff.rfl (exists_congr (hcompletes kind))
  -- All parts are taken over from the rest, whose conditions are the same.
  exact
    { split := by rw [h.split]; rfl
      known := h.known
      struck := h.struck
      tracked := h.tracked
      scheduled := h.scheduled
      quantity := h.quantity
      row := h.row
      complete := fun kind aim hdone => h.complete kind aim ((hcompletes kind aim).mp hdone)
      others := fun kind hkind => h.others kind (mt (hreaches kind).mpr hkind)
      names := fun name hname => h.names name fun kind n hkind =>
        hname kind n ((hreaches kind).mpr hkind)
      rows := fun owner kind hkind => h.rows owner kind fun howner aim hdone =>
        hkind howner aim ((hcompletes kind aim).mpr hdone) }

/-- **An entry that was done is put in front of what the rest leaves.** The rest starts from a
ledger and a formation in which that entry is done; its guarantees about all it does not reach turn
into guarantees about this process type. -/
theorem prepend (hknown : formation.process? type = some process)
    (hmoved : Brought release type ledger target target moved)
    (hrowApp : row.app = app) (hrowType : row.type = type)
    (hrowQuantity : row.quantity.toValue = .int target) (hnew : type ∉ rest.map (·.1))
    (h : CutShort app release rest (moved.want row)
      (formation.replace type (process.scaled target (.text app))) call after scaled cut) :
    CutShort app release ((type, target) :: rest) ledger formation call after scaled
      (cut.following (type, target)) := by
  subst hrowApp hrowType
  -- the process type of the entry does not come up again
  have hcut : cut.type ≠ row.type := fun heq => hnew (heq ▸ h.type_mem)
  have hdone {kind : String} {aim : Nat} (hmem : (kind, aim) ∈ cut.done) : kind ≠ row.type :=
    fun heq => hnew (heq ▸ h.mem_of_done hmem)
  have hown : (cut.following (row.type, target)).Completes formation row.type target :=
    Cut.completes_following.mpr (.inl ⟨rfl, by rw [hknown]; rfl⟩)
  -- so what the rest completes it completes of the formation as it was
  have hcompletes (kind : String) (aim : Nat) :
      cut.Completes (formation.replace row.type (process.scaled target (.text row.app))) kind aim ↔
        cut.Completes formation kind aim :=
    and_congr_right fun hmem => by rw [Formation.process?_replace, if_neg (hdone hmem)]
  have hlater {kind : String} {aim : Nat} (hcompleted : cut.Completes
      (formation.replace row.type (process.scaled target (.text row.app))) kind aim) :
      (cut.following (row.type, target)).Completes formation kind aim :=
    Cut.completes_following.mpr (.inr ((hcompletes kind aim).mp hcompleted))
  have hreaches {kind : String} (hreached : cut.Reaches
      (formation.replace row.type (process.scaled target (.text row.app))) kind) :
      (cut.following (row.type, target)).Reaches formation kind :=
    hreached.imp_right fun ⟨aim, hcompleted⟩ => ⟨aim, hlater hcompleted⟩
  have hnot : ¬cut.Reaches (formation.replace row.type (process.scaled target (.text row.app)))
      row.type := by
    rintro (heq | ⟨aim, hmem, -⟩)
    · exact hcut heq.symm
    · exact hdone hmem rfl
  have hprocesses (owner kind : String) (hkind : owner = row.app → kind ≠ row.type) :
      (moved.want row).processes.filter (ProcessRow.isOf owner kind) =
        ledger.processes.filter (ProcessRow.isOf owner kind) := by
    rw [← hmoved.processes]
    exact ProcessRow.filter_isOf_put (fun heq => hkind heq.symm) moved.processes
  exact
    { split := by rw [h.split]; rfl
      known := by
        have hcount := h.known
        rwa [Formation.count?_replace _ hknown, if_neg hcut] at hcount
      struck := h.struck
      tracked := h.tracked
      scheduled := h.scheduled
      quantity := h.quantity
      row := h.row.trans (hprocesses row.app cut.type fun _ => hcut)
      complete := by
        intro kind aim hcompleted
        rcases Cut.completes_following.mp hcompleted with ⟨heq, -⟩ | hrest
        · -- the rest leaves alone what was done before it
          obtain ⟨rfl, rfl⟩ := Prod.mk.inj heq
          have hsame := h.hasInstance_iff hnot
          refine ⟨fun ordinal => (hsame ordinal).1.trans (hmoved.tracked ordinal),
            fun ordinal => (hsame ordinal).2.trans (hmoved.scheduled ordinal), ?_, ?_⟩
          · rw [Formation.count?, h.others _ hnot, ← Formation.count?,
              Formation.count?_replace _ hknown, if_pos rfl]
          · exact (isWanted_want row hrowQuantity moved).of_filter_eq
              (h.rows _ _ fun _ aim hcompleted => hnot (.inr ⟨aim, hcompleted⟩))
        · exact h.complete kind aim ((hcompletes kind aim).mpr hrest)
      others := by
        intro kind hkind
        have hne : kind ≠ row.type := fun heq => hkind (.inr ⟨target, heq ▸ hown⟩)
        rw [h.others kind (mt hreaches hkind), Formation.process?_replace, if_neg hne]
      names := by
        intro name hname
        have hfirst := hmoved.names name fun n => hname row.type n (.inr ⟨target, hown⟩)
        exact (hfirst.trans (.want row moved)).trans
          (h.names name fun kind n hkind => hname kind n (hreaches hkind))
      rows := by
        intro owner kind hkind
        refine (h.rows owner kind fun howner aim hcompleted =>
          hkind howner aim (hlater hcompleted)).trans (hprocesses owner kind ?_)
        rintro howner rfl
        exact hkind howner target hown }

/-- **Scheduler and job store agree on a name if they did before**, unless it is that of the one
instance by which the process type in question has come further on one side. -/
theorem agrees (h : CutShort app release request ledger formation call after scaled cut)
    {name : String} (hbefore : name ∈ ledger.scheduled ↔ name ∈ ledger.tracked)
    (hname : ∀ n, instanceName? release cut.type n = .ok name →
      (n ≤ cut.scheduled ↔ n ≤ cut.tracked)) :
    name ∈ after.scheduled ↔ name ∈ after.tracked := by
  -- A name of an instance that was reached is decided by ordinals, and any other name by what was
  -- there before.
  by_cases hreached : ∃ kind n, cut.Reaches formation kind ∧ instanceName? release kind n = .ok name
  · obtain ⟨kind, n, rfl | ⟨aim, hdone⟩, hinstance⟩ := hreached
    · -- the process type in question stands where it was left
      rw [h.scheduled.mem_iff hinstance, h.tracked.mem_iff hinstance, hname n hinstance]
    · obtain ⟨htracked, hscheduled, -⟩ := h.complete kind aim hdone
      rw [hscheduled.mem_iff hinstance, htracked.mem_iff hinstance]
  · have hsame := h.names name fun kind n hreaches hinstance =>
      hreached ⟨kind, n, hreaches, hinstance⟩
    rw [hsame.mem_scheduled, hsame.mem_tracked, hbefore]

end CutShort

/-- Instances of another process type are as they were. -/
theorem Brought.hasInstance_iff {tracked scheduled : Nat} {other : String}
    (h : Brought release type start tracked scheduled ledger) (hne : other ≠ type) (ordinal : Int) :
    (HasInstance release other ledger.tracked ordinal ↔
      HasInstance release other start.tracked ordinal) ∧
    (HasInstance release other ledger.scheduled ordinal ↔
      HasInstance release other start.scheduled ordinal) := by
  -- The name of an instance tells its process type, so it is none of the names that were touched.
  have hsame {name : String}
      (hname : JobName.text? release.app release.version (.text other) (.int ordinal) = .ok name) :
      SameUnder name start ledger := by
    refine h.names name fun n hinstance => hne ?_
    exact Value.text.inj (JobName.fields_of_text? hname hinstance).2.2.1
  exact ⟨exists_congr fun _ => and_congr_right fun hname => (hsame hname).mem_tracked,
    exists_congr fun _ => and_congr_right fun hname => (hsame hname).mem_scheduled⟩

/-- What is level stays so when one process type is brought to a target. -/
theorem IsLevel.scaled {formation : Formation} {moved : Ledger}
    (h : ledger.IsLevel release formation) (hknown : formation.process? type = some process)
    (hmoved : Brought release type ledger target target moved) (row : ProcessRow) (owner : Value) :
    (moved.want row).IsLevel release (formation.replace type (process.scaled target owner)) := by
  intro other found hfound
  rw [Formation.process?_replace] at hfound
  -- The process type that was scaled has its target now, and the others have what they had.
  split at hfound
  · next heq =>
    subst heq
    rw [hknown] at hfound
    obtain rfl := Option.some.inj hfound
    exact ⟨target, rfl, hmoved.tracked, hmoved.scheduled⟩
  · next hne =>
    obtain ⟨count, hquantity, htracked, hscheduled⟩ := h other found hfound
    exact ⟨count, hquantity,
      fun ordinal => (hmoved.hasInstance_iff hne ordinal).1.trans (htracked ordinal),
      fun ordinal => (hmoved.hasInstance_iff hne ordinal).2.trans (hscheduled ordinal)⟩

end Ledger

/-- The processes of the formation are found under their own types, and they belong to the
application or to none. -/
structure Formation.Belongs (app : String) (formation : Formation) : Prop where
  own : ∀ type process, formation.process? type = some process → process.type = .text type
  owned : ∀ type process, formation.process? type = some process →
    process.app = .text "" ∨ process.app = .text app

/-- A formation still belongs to the application after one of its processes was scaled. -/
theorem Formation.Belongs.scaled {app type : String} {formation : Formation} {process : ProcessType}
    {target : Nat} (h : formation.Belongs app) (hknown : formation.process? type = some process) :
    Formation.Belongs app (formation.replace type (process.scaled target (.text app))) := by
  -- a process is found as before, unless it is the one that was scaled
  have hfound {other : String} {found : ProcessType}
      (hother : Formation.process? (formation.replace type (process.scaled target (.text app)))
        other = some found) :
      formation.process? other = some found ∨
        other = type ∧ found = process.scaled target (.text app) := by
    rw [Formation.process?_replace] at hother
    split at hother
    · next heq =>
      rw [heq, hknown] at hother
      exact .inr ⟨heq, (Option.some.inj hother).symm⟩
    · exact .inl hother
  constructor
  · intro other found hother
    rcases hfound hother with hold | ⟨rfl, rfl⟩
    · exact h.own other found hold
    · exact (process.type_scaled target (.text app)).trans (h.own _ _ hknown)
  · intro other found hother
    rcases hfound hother with hold | ⟨rfl, rfl⟩
    · exact h.owned other found hold
    · exact .inr (Formation.app_scaled (h.owned _ _ hknown))

/-- **A request that a fault strikes is cut short there**, and fails with the failure of the
fault. -/
theorem Ledger.Ran.scaleTypes_cutShort {app : String} {blueprint : Blueprint} {stores : Stores}
    {moment : Ledger.Moment} {ledger after : Ledger} {record : List Attempt}
    {request : ScaleRequest} {formation : Formation} {result : Scale.Result} {attempt : Attempt}
    {failure : Failure}
    (happ : blueprint.release.app = .text app) (hformation : formation.Belongs app)
    (hlevel : ledger.IsLevel blueprint.release formation)
    (hdistinct : (request.map (·.1)).Nodup)
    (hran : Ran stores moment (scaleTypes blueprint request formation) ledger record result after)
    (hmem : attempt ∈ record) (hchange : attempt.call.IsChange)
    (hfault : attempt.fault = some failure) :
    result.ending = .error failure ∧ ∃ cut, Ledger.CutShort app blueprint.release request ledger
      formation attempt.call after result.formation cut := by
  -- On the request. The ledger and the formation are those in which the entries so far are done.
  induction request generalizing ledger formation record with
  | nil =>
    obtain ⟨-, rfl, -⟩ := hran.done_cases
    cases hmem
  | cons entry rest ih =>
    obtain ⟨type, target⟩ := entry
    obtain ⟨hnew, hdistinct'⟩ := List.nodup_cons.mp hdistinct
    rw [scaleTypes] at hran
    split at hran
    · next hunknown =>
      obtain ⟨hending, cut, hcut⟩ := ih hformation hlevel hdistinct' hran hmem
      exact ⟨hending, _, hcut.skip hunknown⟩
    · next process hknown =>
      obtain ⟨count, hquantity, htracked, hscheduled⟩ := hlevel type process hknown
      obtain ⟨⟨scaled, ending⟩, between, first, second, hfirst, hrest, rfl⟩ := Ran.bind_cases
        (scaleType blueprint type process target) hran
      obtain ⟨hdone, hstruck⟩ := hfirst.scaleType_struck happ (hformation.own _ _ hknown)
        (hformation.owned _ _ hknown) hquantity rfl
        ⟨htracked, hscheduled, fun name _ => .refl name ledger, rfl⟩
      cases ending with
      | error cause =>
        -- the request ends at this entry, so the fault struck here
        obtain ⟨rfl, rfl, rfl⟩ := hrest.done_cases
        rw [List.append_nil] at hmem
        obtain ⟨hcause, tracked, scheduled, quantity, hat, hbrought, hscaled⟩ :=
          hstruck attempt hmem hchange failure hfault
        refine ⟨hcause, _, Ledger.CutShort.here hknown hquantity hat hbrought ?_⟩
        rcases hscaled with ⟨rfl, rfl⟩ | ⟨rfl, rfl⟩
        · exact hquantity
        · rfl
      | ok =>
        obtain ⟨rfl, moved, row, hmoved, rfl, hrowApp, hrowType, hrowQuantity⟩ := hdone rfl
        -- The entry went well, so no fault struck there and it must have struck in the rest.
        rcases List.mem_append.mp hmem with hearly | hlate
        · cases (hstruck attempt hearly hchange failure hfault).1
        · obtain ⟨hending, cut, hcut⟩ := ih (hformation.scaled hknown)
            (hlevel.scaled hknown hmoved row _) hdistinct' hrest hlate
          exact ⟨hending, _, hcut.prepend hknown hmoved hrowApp hrowType hrowQuantity hnew⟩

/-! ### In a world -/

namespace World

variable {opened : Opened} {stores : Stores} {world after : World} {ledger : Ledger}
  {app : String} {blueprint : Blueprint}

/-- **What scaling leaves that is cut short by a fault.** The request fails with the failure of the
fault. The process types before the one in question are done, the one in question stands where the
call leaves it that was struck, and all others are as they were; and apart from the instance in
question scheduler and job store agree as they did before. -/
theorem scale_cutShort {quantities : List (Value × Value)} {request : ScaleRequest}
    {formation : Formation} {result : Scale.Result} {attempt : Attempt} {failure : Failure}
    (hserve : stores.Serve opened) (hshows : world.Shows opened ledger)
    (happ : blueprint.release.app = .text app) (hformation : formation.Belongs app)
    (hlevel : ledger.IsLevel blueprint.release formation)
    (hdistinct : DistinctTypes quantities)
    (hrequest : ScaleRequest.ofEntries quantities = .ok request)
    (hrun : run stores (scale blueprint quantities formation) world = (result, after))
    (hmem : attempt ∈ attempts stores (scale blueprint quantities formation) world)
    (hchange : attempt.call.IsChange) (hfault : attempt.fault = some failure) :
    result.ending = .error failure ∧ ∃ left cut, after.Shows opened left ∧
      Ledger.CutShort app blueprint.release request ledger formation attempt.call left
        result.formation cut ∧
      (∀ other, ¬cut.Reaches formation other → ∀ ordinal,
        (HasInstance blueprint.release other left.tracked ordinal ↔
          HasInstance blueprint.release other ledger.tracked ordinal) ∧
        (HasInstance blueprint.release other left.scheduled ordinal ↔
          HasInstance blueprint.release other ledger.scheduled ordinal)) ∧
      ∀ name, (name ∈ ledger.scheduled ↔ name ∈ ledger.tracked) →
        (∀ n, instanceName? blueprint.release cut.type n = .ok name →
          (n ≤ cut.scheduled ↔ n ≤ cut.tracked)) →
        (name ∈ left.scheduled ↔ name ∈ left.tracked) := by
  obtain ⟨left, hran, hshown, -⟩ := run_ran hserve hshows (isAt_moment stores world)
    (scale blueprint quantities formation)
  rw [hrun] at hran hshown
  -- A request that was read is done entry by entry, and the rest is about ledgers only.
  have hplan : scale blueprint quantities formation = scaleTypes blueprint request formation := by
    rw [scale_eq, hrequest]
  rw [hplan] at hran hmem
  obtain ⟨hending, cut, hcut⟩ := hran.scaleTypes_cutShort happ hformation hlevel
    (hdistinct request hrequest) hmem hchange hfault
  exact ⟨hending, left, cut, hshown, hcut, fun other hother => hcut.hasInstance_iff hother,
    fun name hbefore hname => hcut.agrees hbefore hname⟩

/-- A formation of no instances belongs to every application. -/
theorem belongs_web (app : String) : (Formation.web 0).Belongs app := by
  have hfound {type : String} {process : ProcessType}
      (h : (Formation.web 0).process? type = some process) :
      type = "web" ∧ process = ⟨.text "web", .text "./run", .whole 0, .text ""⟩ := by
    rw [Formation.web, Formation.process?_cons_text] at h
    split at h
    · next heq => exact ⟨heq.symm, (Option.some.inj h).symm⟩
    · cases h
  constructor
  · intro type process h
    obtain ⟨rfl, rfl⟩ := hfound h
    rfl
  · intro type process h
    obtain ⟨rfl, rfl⟩ := hfound h
    exact .inl rfl

/-- Where nothing is tracked or scheduled a formation of no instances is level. -/
theorem isLevel_web (release : Release) :
    Ledger.IsLevel release (Formation.web 0) ⟨[], [], []⟩ := by
  intro type process h
  rw [Formation.web, Formation.process?_cons_text] at h
  split at h
  · obtain rfl := Option.some.inj h
    have hnone : IsRange 0 (HasInstance release type []) := by
      intro ordinal
      exact iff_of_false (fun ⟨_, _, hmem⟩ => nomatch hmem) (by omega)
    exact ⟨0, rfl, hnone, hnone⟩
  · cases h

/-- If the job store fails to track the second of three instances, the request is cut short
there. -/
theorem scale_cutShort_at_second :
    ∃ attempt ∈ attempts Session.freshlyOpened.stores
        (scale (.web 1) (Session.requesting 3) (.web 0)) forgetful,
      attempt.call.IsChange ∧ ∃ failure left cut, attempt.fault = some failure ∧
        Ledger.CutShort "web" (Blueprint.web 1).release [("web", 3)] ⟨[], [], []⟩ (.web 0)
          attempt.call left (run Session.freshlyOpened.stores
            (scale (.web 1) (Session.requesting 3) (.web 0)) forgetful).1.formation cut := by
  -- That a change is struck is found by running the work; which one it is the theorem tells.
  have hstruck : ∃ attempt ∈ attempts Session.freshlyOpened.stores
      (scale (.web 1) (Session.requesting 3) (.web 0)) forgetful,
      attempt.call.IsChange ∧ attempt.fault.isSome = true := by decide +kernel
  obtain ⟨attempt, hmem, hchange, hsome⟩ := hstruck
  obtain ⟨failure, hfault⟩ := Option.isSome_iff_exists.mp hsome
  obtain ⟨hmemory, htime, hjobs, hprocesses, hevents⟩ := (Session.fresh_inOrder "web").shows
  have hshows : forgetful.Shows Session.freshlyOpened ⟨[], [], []⟩ :=
    ⟨hmemory, htime, hjobs, hprocesses, hevents⟩
  obtain ⟨-, left, cut, -, hcut, -⟩ := scale_cutShort Session.freshlyOpened.serve_stores hshows rfl
    (belongs_web "web") (isLevel_web _) (Session.distinctTypes_requesting 3)
    (Session.ofEntries_requesting 3) (Prod.eta _).symm hmem hchange hfault
  exact ⟨attempt, hmem, hchange, failure, left, cut, hfault, hcut⟩

end World

end Rollout
