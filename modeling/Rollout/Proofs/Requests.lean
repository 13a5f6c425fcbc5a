import Rollout.Proofs.Scaling

/-!
# What a scale request does

A request is worked off entry by entry. Three things can become of it:

* `Ledger.Scaled`: entries were worked off, each known process type was brought to its target, and
  its process took the new quantity;
* `Ledger.Stopped`: at one entry the work was broken off, and the process kept its quantity, or the
  process store refused the quantity that the process had already taken;
* a request that is not valid changes nothing.

`World.scaleTypes_cases` says that a request is a number of entries of the first sort and then, if
it fails, one of the second sort. Ledger and formation go together here: what a process type has in
the cluster and what its process says only agree where nothing was broken off.
-/

namespace Rollout

/-! ### Formations -/

theorem Value.same_text_iff {key : Value} {s : String} :
    key.same (.text s) = true ↔ key = .text s := by
  cases key with
  | text t => rw [same_text, beq_iff_eq, Value.text.injEq]
  | none | bool | int | real | list | dict => simp [same, number?]

namespace Formation

variable {formation : Formation} {type other : String} {process : ProcessType}

/-- The process of a type, when the first entry is one of texts. -/
theorem process?_cons_text (key : String) (first : ProcessType) (rest : Formation) (type : String) :
    process? ((.text key, first) :: rest) type =
      if key = type then some first else rest.process? type := by
  rw [process?, Value.find?, List.find?_cons, Value.same_text]
  by_cases hkey : key = type
  · rw [if_pos hkey, beq_iff_eq.mpr hkey]
    rfl
  · rw [if_neg hkey, beq_eq_false_iff_ne.mpr hkey]
    rfl

/-- Replacing in a formation whose first entry is one of texts. -/
theorem replace_cons_text (key : String) (first : ProcessType) (rest : Formation) (type : String)
    (process : ProcessType) :
    replace type process ((.text key, first) :: rest) =
      if key = type then (.text key, process) :: rest
      else (.text key, first) :: replace type process rest := by
  rw [replace, Value.same_text]
  by_cases hkey : key = type
  · rw [if_pos hkey, if_pos (beq_iff_eq.mpr hkey)]
  · rw [if_neg hkey, if_neg (by rw [beq_eq_false_iff_ne.mpr hkey]; exact Bool.false_ne_true)]

theorem isTyped_cons {key : Value} {first : ProcessType} {rest : Formation} :
    IsTyped ((key, first) :: rest) ↔ (∃ s, key = .text s) ∧ first.IsStorable ∧ IsTyped rest := by
  rw [IsTyped, List.forall_mem_cons, IsTyped, and_assoc]

/-- A process that is found stands under its type. -/
theorem IsTyped.mem_of_process? (h : formation.IsTyped)
    (hknown : formation.process? type = some process) :
    (.text type, process) ∈ formation := by
  -- On the entries: what is found stands at the first entry of the type.
  induction formation with
  | nil => cases hknown
  | cons entry rest ih =>
    obtain ⟨key, first⟩ := entry
    obtain ⟨⟨key, rfl⟩, -, hrest⟩ := isTyped_cons.mp h
    rw [process?_cons_text] at hknown
    split at hknown
    · next hkey =>
      obtain rfl := Option.some.inj hknown
      rw [hkey]
      exact List.mem_cons_self
    · exact List.mem_cons_of_mem _ (ih hrest hknown)

/-- The process of a type after one was replaced, whatever the keys are. A type that is not known is
not added: nothing is replaced then. -/
theorem process?_replace (formation : Formation) (type other : String) (process : ProcessType) :
    (formation.replace type process).process? other =
      if other = type then (formation.process? other).map fun _ => process
      else formation.process? other := by
  -- On the entries, up to the first one of the type.
  induction formation with
  | nil =>
    split <;> rfl
  | cons entry rest ih =>
    obtain ⟨key, first⟩ := entry
    have hcons (first : ProcessType) (rest : Formation) : process? ((key, first) :: rest) other =
        if key.same (.text other) then some first else rest.process? other := by
      rw [process?, Value.find?, List.find?_cons]
      cases key.same (.text other) <;> rfl
    rw [replace]
    split
    · next hkey =>
      -- the entry is replaced here, and the rest stays as it is
      obtain rfl := Value.same_text_iff.mp hkey
      rw [process?_cons_text, process?_cons_text]
      by_cases hother : other = type
      · rw [if_pos hother.symm, if_pos hother, if_pos hother.symm]
        rfl
      · rw [if_neg (Ne.symm hother), if_neg hother, if_neg (Ne.symm hother)]
    · next hkey =>
      rw [hcons, hcons, ih]
      by_cases hsame : key.same (.text other) = true
      · have hne : other ≠ type := fun heq => hkey (heq ▸ hsame)
        rw [if_pos hsame, if_neg hne, if_pos hsame]
      · rw [if_neg hsame, if_neg hsame]

/-- Replacing a process by itself changes nothing. -/
theorem IsTyped.replace_of_process? (h : formation.IsTyped)
    (hknown : formation.process? type = some process) :
    formation.replace type process = formation := by
  induction formation with
  | nil => rfl
  | cons entry rest ih =>
    obtain ⟨key, first⟩ := entry
    obtain ⟨⟨key, rfl⟩, -, hrest⟩ := isTyped_cons.mp h
    rw [process?_cons_text] at hknown
    rw [replace_cons_text]
    split at hknown
    · next hkey =>
      obtain rfl := Option.some.inj hknown
      rw [if_pos hkey]
    · next hkey => rw [if_neg hkey, ih hrest hknown]

/-- What stands in a formation after a process was replaced. -/
theorem IsTyped.mem_replace (h : formation.IsTyped) {entry : Value × ProcessType}
    (hmem : entry ∈ formation.replace type process) :
    entry ∈ formation ∨ entry = (.text type, process) := by
  -- On the entries: only the first one of the type is another one afterwards.
  induction formation with
  | nil => exact .inl hmem
  | cons first rest ih =>
    obtain ⟨key, earlier⟩ := first
    obtain ⟨⟨key, rfl⟩, -, hrest⟩ := isTyped_cons.mp h
    rw [replace_cons_text] at hmem
    split at hmem
    · next hkey =>
      rcases List.mem_cons.mp hmem with rfl | hlater
      · exact .inr (by rw [hkey])
      · exact .inl (List.mem_cons_of_mem _ hlater)
    · rcases List.mem_cons.mp hmem with rfl | hlater
      · exact .inl List.mem_cons_self
      · exact (ih hrest hlater).imp_left (List.mem_cons_of_mem _)

/-- A formation stays typed when a process is replaced by one that can be stored. -/
theorem IsTyped.replace (h : formation.IsTyped) (type : String) (hprocess : process.IsStorable) :
    (formation.replace type process).IsTyped := by
  intro entry hmem
  rcases h.mem_replace hmem with hold | rfl
  · exact h entry hold
  · exact ⟨⟨type, rfl⟩, hprocess⟩

theorem IsTyped.scaled (h : formation.IsTyped) (hknown : formation.process? type = some process)
    {target : Nat} (htarget : CellNumber.fits target = true) (app : String) :
    (formation.replace type (process.scaled target (.text app))).IsTyped :=
  h.replace type (World.isStorable_scaled (h _ (h.mem_of_process? hknown)).2 htarget app)

end Formation

/-! ### Ledgers and formations after entries of a request -/

namespace Ledger

/-- The row says what is wanted of the process. The quantity that is wanted need not be the one that
the process has. -/
structure Wants (row : ProcessRow) (process : ProcessType) (target : Nat) : Prop where
  app : process.app = .text row.app
  type : process.type = .text row.type
  quantity : row.quantity.toValue = .int target

/-- Entries of a request were worked off, one after the other. The formation goes along, because
each entry is brought from the quantity that the entries before it left; it matters where a type is
named twice. -/
inductive Scaled (app : String) (blueprint : Blueprint) :
    ScaleRequest → Ledger → Formation → Ledger → Formation → Prop where
  /-- There were none. -/
  | nil {ledger : Ledger} {formation : Formation} :
      Scaled app blueprint [] ledger formation ledger formation
  /-- The formation does not know the process type of the first one. -/
  | skip {type : String} {target : Nat} {rest : ScaleRequest} {ledger after : Ledger}
      {formation scaled : Formation} (hunknown : formation.process? type = none)
      (hrest : Scaled app blueprint rest ledger formation after scaled) :
      Scaled app blueprint ((type, target) :: rest) ledger formation after scaled
  /-- The process type of the first one was brought to its target. -/
  | cons {type command : String} {target current : Nat} {rest : ScaleRequest}
      {ledger moved after : Ledger} {formation scaled : Formation} {process : ProcessType}
      {row : ProcessRow} (hknown : formation.process? type = some process)
      (hcommand : process.command = .text command) (hquantity : process.quantity = .whole current)
      (hadjusted : Adjusted app blueprint type command current target ledger moved)
      (hrow : Wants row (process.scaled target (.text app)) target)
      (hrest : Scaled app blueprint rest (moved.want row)
        (formation.replace type (process.scaled target (.text app))) after scaled) :
      Scaled app blueprint ((type, target) :: rest) ledger formation after scaled

/-- A request was stopped at an entry, and `calm` or not being able to `keep` what is wanted are
what can be said about the reason. In the second case the process has its new quantity all the same,
and formation and process store differ from then on. -/
inductive Stopped (app : String) (blueprint : Blueprint) (calm keep : Prop) (type : String)
    (target : Nat) : Ledger → Formation → Ledger → Formation → Prop where
  /-- The process type was not brought to its target, and keeps its quantity. -/
  | broken {command : String} {current : Nat} {ledger stopped : Ledger} {formation : Formation}
      {process : ProcessType} (hknown : formation.process? type = some process)
      (hcommand : process.command = .text command) (hquantity : process.quantity = .whole current)
      (hbroken : BrokenOff app blueprint type command calm current target ledger stopped) :
      Stopped app blueprint calm keep type target ledger formation stopped formation
  /-- The process type was brought to its target, which was not written down. -/
  | unkept {command : String} {current : Nat} {ledger moved : Ledger} {formation : Formation}
      {process : ProcessType} (hknown : formation.process? type = some process)
      (hcommand : process.command = .text command) (hquantity : process.quantity = .whole current)
      (hadjusted : Adjusted app blueprint type command current target ledger moved)
      (hreason : ¬keep) :
      Stopped app blueprint calm keep type target ledger formation moved
        (formation.replace type (process.scaled target (.text app)))

variable {app : String} {blueprint : Blueprint} {calm keep : Prop} {request : ScaleRequest}
  {ledger after : Ledger} {formation scaled : Formation} {type : String} {target : Nat}

theorem Scaled.moves (h : Scaled app blueprint request ledger formation after scaled)
    (happ : blueprint.release.app = .text app) : Moves app ledger after := by
  induction h with
  | nil => exact .refl
  | skip _ _ ih => exact ih
  | cons _ _ _ hadjusted _ _ ih => exact ((hadjusted.moves happ).tail (.want _)).trans ih

/-- A ledger stays sound when a process type is brought to a quantity that is then written down. -/
theorem Adjusted.isSound_want {command : String} {current : Nat}
    (h : Adjusted app blueprint type command current target ledger after)
    (happ : blueprint.release.app = .text app) (hsound : ledger.IsSound) (row : ProcessRow) :
    (after.want row).IsSound :=
  isSound_of_moves ((h.moves happ).tail (.want row)) hsound

/-- Working a request off is working off a first part of it and then the rest. -/
theorem Scaled.split {first rest : ScaleRequest}
    (h : Scaled app blueprint (first ++ rest) ledger formation after scaled) :
    ∃ middle between, Scaled app blueprint first ledger formation middle between ∧
      Scaled app blueprint rest middle between after scaled := by
  -- On the first part of the request.
  induction first generalizing ledger formation with
  | nil => exact ⟨ledger, formation, .nil, h⟩
  | cons entry first ih =>
    -- an entry of the first part is worked off in the same way in both
    cases h with
    | skip hunknown hrest =>
      obtain ⟨middle, between, hfirst, hlater⟩ := ih hrest
      exact ⟨middle, between, .skip hunknown hfirst, hlater⟩
    | cons hknown hcommand hquantity hadjusted hrow hrest =>
      obtain ⟨middle, between, hfirst, hlater⟩ := ih hrest
      exact ⟨middle, between, .cons hknown hcommand hquantity hadjusted hrow hfirst, hlater⟩

/-- In a request that names each process type once, the entries before and after one are of other
types. -/
theorem exists_split_of_mem {request : ScaleRequest} (hdistinct : (request.map (·.1)).Nodup)
    (hmem : (type, target) ∈ request) :
    ∃ first rest, request = first ++ (type, target) :: rest ∧ type ∉ first.map (·.1) ∧
      type ∉ rest.map (·.1) := by
  obtain ⟨first, rest, rfl⟩ := List.append_of_mem hmem
  rw [List.map_append, List.map_cons, List.nodup_middle, List.nodup_cons, List.mem_append,
    not_or] at hdistinct
  exact ⟨first, rest, rfl, hdistinct.1⟩

theorem Stopped.moves
    (h : Stopped app blueprint calm keep type target ledger formation after scaled)
    (happ : blueprint.release.app = .text app) : Moves app ledger after := by
  cases h with
  | broken _ _ _ hbroken => exact hbroken.moves happ
  | unkept _ _ _ hadjusted _ => exact hadjusted.moves happ

/-- Working entries off leaves a typed formation. -/
theorem Scaled.isTyped (h : Scaled app blueprint request ledger formation after scaled)
    (hfits : ∀ entry ∈ request, CellNumber.fits entry.2 = true) (hformation : formation.IsTyped) :
    scaled.IsTyped := by
  -- Each entry that was worked off puts a process in its place that can be stored.
  induction h with
  | nil => exact hformation
  | skip _ _ ih => exact ih (fun entry hmem => hfits entry (List.mem_cons_of_mem _ hmem)) hformation
  | cons hknown _ _ _ _ _ ih =>
    exact ih (fun entry hmem => hfits entry (List.mem_cons_of_mem _ hmem))
      (hformation.scaled hknown (hfits _ List.mem_cons_self) app)

theorem Stopped.isTyped
    (h : Stopped app blueprint calm keep type target ledger formation after scaled)
    (hfits : CellNumber.fits target = true) (hformation : formation.IsTyped) : scaled.IsTyped := by
  cases h with
  | broken => exact hformation
  | unkept hknown => exact hformation.scaled hknown hfits app

/-- Work that was broken off for want of calm was so for want of more. -/
theorem BrokenOff.imp {calm' : Prop} {command : String} {current : Nat}
    (h : BrokenOff app blueprint type command calm current target ledger after)
    (himp : calm' → calm) :
    BrokenOff app blueprint type command calm' current target ledger after := by
  cases h with
  | refused hfailure => exact .refused hfailure
  | growing hlt henvironment hplaced hstopped hreason =>
    exact .growing hlt henvironment hplaced hstopped fun hcalm => hreason (himp hcalm)
  | shrinking hrest hle hordinals hgiven htracked hreason =>
    exact .shrinking hrest hle hordinals hgiven htracked fun hcalm => hreason (himp hcalm)

/-- A request that was stopped for want of calm was so for want of more. -/
theorem Stopped.imp {calm' keep' : Prop}
    (h : Stopped app blueprint calm keep type target ledger formation after scaled)
    (hcalm : calm' → calm) (hkeep : keep' → keep) :
    Stopped app blueprint calm' keep' type target ledger formation after scaled := by
  cases h with
  | broken hknown hcommand hquantity hbroken =>
    exact .broken hknown hcommand hquantity (hbroken.imp hcalm)
  | unkept hknown hcommand hquantity hadjusted hreason =>
    exact .unkept hknown hcommand hquantity hadjusted fun hkept => hreason (hkeep hkept)

end Ledger

/-! ### Runs -/

namespace World

open Scale

variable {opened : Opened} {stores : Stores} {world after : World} {ledger : Ledger} {app : String}
  {blueprint : Blueprint}

theorem Follows.sparesScheduler (h : world.Follows after) (hspares : world.SparesScheduler) :
    after.SparesScheduler := ⟨h.spares hspares.1, h.spares hspares.2⟩

/-- **What a request does**: entries are worked off, and if it fails, it is stopped at the next
one. -/
theorem scaleTypes_cases {request : ScaleRequest} {formation : Formation} {result : Result}
    (hserve : stores.Serve opened) (hstore : stores.processes.isSome = true)
    (hshows : world.Shows opened ledger) (hsound : ledger.IsSound) (hspares : world.SparesStores)
    (hblueprint : blueprint.IsTyped app) (hformation : formation.IsTyped)
    (hfits : ∀ entry ∈ request, CellNumber.fits entry.2 = true)
    (h : World.run stores (scaleTypes blueprint request formation) world = (result, after)) :
    world.Follows after ∧ ∃ done rest middle between, request = done ++ rest ∧
      Ledger.Scaled app blueprint done ledger formation middle between ∧
      (rest = [] ∧ result = ⟨between, .ok ()⟩ ∧ after.Shows opened middle ∨
        ∃ type target tail failure moved, rest = (type, target) :: tail ∧
          result.ending = .error failure ∧ after.Shows opened moved ∧
          Ledger.Stopped app blueprint world.SparesScheduler (world.Spares .update) type target
            middle between moved result.formation) := by
  -- On the entries. What was worked off so far is in the ledger and in the formation, and both are
  -- free.
  induction request generalizing world ledger formation with
  | nil =>
    obtain ⟨rfl, rfl⟩ := Prod.mk.inj h
    exact ⟨.refl _, [], [], ledger, formation, rfl, .nil, .inl ⟨rfl, rfl, hshows⟩⟩
  | cons entry rest ih =>
    obtain ⟨type, target⟩ := entry
    -- each entry meets the ledger and the formation that the entries before it left
    have htarget := hfits (type, target) List.mem_cons_self
    have hfits' : ∀ entry ∈ rest, CellNumber.fits entry.2 = true :=
      fun entry hmem => hfits entry (List.mem_cons_of_mem _ hmem)
    rw [scaleTypes] at h
    split at h
    · next hunknown =>
      -- an unknown process type is passed over
      obtain ⟨hfollows, done, others, middle, between, rfl, hdone, hend⟩ :=
        ih hshows hsound hspares hformation hfits' h
      exact ⟨hfollows, (type, target) :: done, others, middle, between, rfl, .skip hunknown hdone,
        hend⟩
    · next process hknown =>
      have hprocess := (hformation _ (hformation.mem_of_process? hknown)).2
      obtain ⟨command, hcommand⟩ := hprocess.command
      obtain ⟨current, hquantity, -⟩ := hprocess.quantity
      rw [run_plan_bind] at h
      cases hrun : World.run stores (scaleType blueprint type process target) world with
      | mk ended world₁ =>
        obtain ⟨scaled, ending⟩ := ended
        rw [hrun] at h
        obtain ⟨hfollows₁, hcase⟩ := scaleType_cases hserve hshows hsound hspares hblueprint
          hprocess hcommand hquantity htarget hrun
        rcases hcase with ⟨failure, moved, rfl, rfl, hshown, hbroken⟩ |
            ⟨moved, rfl, hadjusted, ⟨row, rfl, hshown, happ, htype, hrow⟩ | ⟨failure, rfl, hshown,
              hreason⟩⟩
        · -- the work was broken off, and the process stands in the formation as before
          obtain ⟨rfl, rfl⟩ := Prod.mk.inj h
          refine ⟨hfollows₁, [], _, ledger, formation, rfl, .nil, .inr ⟨type, target, rest, failure,
            moved, rfl, rfl, hshown, ?_⟩⟩
          dsimp only
          rw [hformation.replace_of_process? hknown]
          exact .broken hknown hcommand hquantity hbroken
        · -- the entry is worked off, and the rest goes on from a ledger and a formation in order
          obtain ⟨hfollows₂, done, others, middle, between, rfl, hdone, hend⟩ :=
            ih hshown (hadjusted.isSound_want hblueprint.app hsound row)
              (hfollows₁.sparesStores hspares) (hformation.scaled hknown htarget app) hfits' h
          refine ⟨hfollows₁.trans hfollows₂, (type, target) :: done, others, middle, between, rfl,
            .cons hknown hcommand hquantity hadjusted ⟨happ, htype, hrow⟩ hdone, ?_⟩
          rcases hend with hend | ⟨type', target', tail, failure, stopped, hothers, hending,
              hshown', hstopped⟩
          · exact .inl hend
          · exact .inr ⟨type', target', tail, failure, stopped, hothers, hending, hshown',
              hstopped.imp hfollows₁.sparesScheduler hfollows₁.spares⟩
        · -- the store failed, and the process has its new quantity all the same
          obtain ⟨rfl, rfl⟩ := Prod.mk.inj h
          exact ⟨hfollows₁, [], _, ledger, formation, rfl, .nil, .inr ⟨type, target, rest, failure,
            moved, rfl, rfl, hshown, .unkept hknown hcommand hquantity hadjusted (hreason hstore)⟩⟩

/-- The quantities are integers of 64 bits, as far as they are quantities at all. A request that is
not valid fits, since nothing comes of it. -/
def FitQuantities (quantities : List (Value × Value)) : Prop :=
  ∀ request, ScaleRequest.ofEntries quantities = .ok request →
    ∀ entry ∈ request, CellNumber.fits entry.2 = true

/-- **What scaling a release does**: nothing if the request is not valid, and else what the request
does. -/
theorem scale_cases {quantities : List (Value × Value)} {formation : Formation} {result : Result}
    (hserve : stores.Serve opened) (hstore : stores.processes.isSome = true)
    (hshows : world.Shows opened ledger) (hsound : ledger.IsSound) (hspares : world.SparesStores)
    (hblueprint : blueprint.IsTyped app) (hformation : formation.IsTyped)
    (hfits : FitQuantities quantities)
    (h : World.run stores (scale blueprint quantities formation) world = (result, after)) :
    world.Follows after ∧
      ((∃ issues, ScaleRequest.ofEntries quantities = .error issues ∧ after.Shows opened ledger ∧
          result = ⟨formation, .error (.invalidQuantities issues)⟩) ∨
        ∃ request done rest middle between, ScaleRequest.ofEntries quantities = .ok request ∧
          request = done ++ rest ∧
          Ledger.Scaled app blueprint done ledger formation middle between ∧
          (rest = [] ∧ result = ⟨between, .ok ()⟩ ∧ after.Shows opened middle ∨
            ∃ type target tail failure moved, rest = (type, target) :: tail ∧
              result.ending = .error failure ∧ after.Shows opened moved ∧
              Ledger.Stopped app blueprint world.SparesScheduler (world.Spares .update) type target
                middle between moved result.formation)) := by
  rw [scale_eq] at h
  split at h
  · next issues hissues =>
    -- an invalid request is refused before anything is asked of the world
    obtain ⟨rfl, rfl⟩ := Prod.mk.inj h
    exact ⟨.refl _, .inl ⟨issues, hissues, hshows, rfl⟩⟩
  · next request hrequest =>
    obtain ⟨hfollows, done, rest, middle, between, hsplit, hdone, hend⟩ := scaleTypes_cases hserve
      hstore hshows hsound hspares hblueprint hformation (hfits request hrequest) h
    exact ⟨hfollows, .inr ⟨request, done, rest, middle, between, hrequest, hsplit, hdone, hend⟩⟩

end World

end Rollout
