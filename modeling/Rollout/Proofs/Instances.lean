import Rollout.Proofs.Histories

/-!
# Instances of process types

Which instances of a process type are tracked is a set of ordinals (`HasInstance`), and what the
process type says of itself is a number. The two agree if the set is an initial range (`IsRange`).

Scaling moves both of them, but not always together. `Shift` says how they can move: a range that
borders on the number from above is gained, or one that borders on it from below is lost, and the
number follows to the other end of the range or stays where it is. Work that was not broken off
moves both of them, work that was broken off moves the set only.

From this alone it follows that disagreement is never undone (`Shift.not_isRange`): nothing below
the number is ever added and nothing above it is ever taken away, and the number cannot pass a hole
on its way down nor a surplus on its way up, since work stops there.
-/

namespace Rollout

/-! ### Sets of ordinals -/

/-- The instances are those from one up to the count. It is what a process type looks like that was
never broken off in the middle of scaling. -/
def IsRange (count : Nat) (has : Int → Prop) : Prop :=
  ∀ ordinal, has ordinal ↔ 1 ≤ ordinal ∧ ordinal ≤ count

/-- How the count of a process type and its instances move: a range of instances above the count is
gained, or one that ends at the count is lost, and the count follows, or stays if the work was not
complete. In either direction instances move from the end, which is why only the ends of the range
can go wrong. -/
inductive Shift (complete : Prop) (count : Nat) (before : Int → Prop) (reached : Nat)
    (after : Int → Prop) : Prop where
  /-- A range is gained, none of which was there. -/
  | gained {high : Nat} (hle : count ≤ high)
      (hnew : ∀ ordinal : Int, count < ordinal → ordinal ≤ high → ¬before ordinal)
      (hafter : ∀ ordinal : Int, after ordinal ↔ before ordinal ∨ count < ordinal ∧ ordinal ≤ high)
      (hreached : reached = high ∨ ¬complete ∧ reached = count)
  /-- A range is lost, all of which was there. -/
  | lost {low : Nat} (hle : low ≤ count)
      (hold : ∀ ordinal : Int, low < ordinal → ordinal ≤ count → before ordinal)
      (hafter : ∀ ordinal : Int, after ordinal ↔
        before ordinal ∧ ¬(low < ordinal ∧ ordinal ≤ count))
      (hreached : reached = low ∨ ¬complete ∧ reached = count)

namespace Shift

variable {complete : Prop} {count reached : Nat} {before after : Int → Prop}

/-- Nothing moves. -/
theorem refl (h : ∀ ordinal, after ordinal ↔ before ordinal) :
    Shift complete count before count after := by
  refine .gained (Nat.le_refl count) (fun ordinal hlt hle => absurd hlt (by omega))
    (fun ordinal => ?_) (.inl rfl)
  rw [h]
  refine ⟨.inl, ?_⟩
  rintro (hbefore | ⟨hlt, hle⟩)
  · exact hbefore
  · omega

/-- Complete work is work. -/
theorem imp {complete' : Prop} (h : Shift complete count before reached after)
    (himp : complete' → complete) : Shift complete' count before reached after := by
  cases h with
  | gained hle hnew hafter hreached =>
    exact .gained hle hnew hafter (hreached.imp_right fun ⟨hnot, hsame⟩ => ⟨mt himp hnot, hsame⟩)
  | lost hle hold hafter hreached =>
    exact .lost hle hold hafter (hreached.imp_right fun ⟨hnot, hsame⟩ => ⟨mt himp hnot, hsame⟩)

/-- The instances before and after may be told in other words. -/
theorem congr {before' after' : Int → Prop} (h : Shift complete count before reached after)
    (hbefore : ∀ ordinal, before' ordinal ↔ before ordinal)
    (hafter : ∀ ordinal, after' ordinal ↔ after ordinal) :
    Shift complete count before' reached after' := by
  obtain rfl : before' = before := funext fun ordinal => propext (hbefore ordinal)
  obtain rfl : after' = after := funext fun ordinal => propext (hafter ordinal)
  exact h

/-- **Complete work keeps agreement.** The count was moved along with the instances, which still are
those from one up to it. -/
theorem isRange (h : Shift complete count before reached after) (hcomplete : complete)
    (hrange : IsRange count before) : IsRange reached after := by
  intro ordinal
  have hordinal := hrange ordinal
  -- Complete work has reached the end of what was gained or lost, and the rest is arithmetic on the
  -- ends.
  cases h with
  | gained hle hnew hafter hreached =>
    obtain rfl := hreached.resolve_right fun hnot => hnot.1 hcomplete
    rw [hafter, hordinal]
    omega
  | lost hle hold hafter hreached =>
    obtain rfl := hreached.resolve_right fun hnot => hnot.1 hcomplete
    rw [hafter, hordinal]
    omega

/-- **Disagreement is never undone.** A count that differs from the instances differs from them
afterwards too, in whichever direction the work went. -/
theorem not_isRange (h : Shift complete count before reached after) (hnot : ¬IsRange count before) :
    ¬IsRange reached after := by
  intro hrange
  -- If the instances afterwards are a range, then taking back what moved gives the range from
  -- before.
  refine hnot fun ordinal => ?_
  have hordinal := hrange ordinal
  cases h with
  | @gained high hle hnew hafter hreached =>
    rw [hafter] at hordinal
    rcases hreached with rfl | ⟨-, rfl⟩
    · -- what was gained is the range above the count
      by_cases hgained : (count : Int) < ordinal ∧ ordinal ≤ reached
      · exact iff_of_false (hnew ordinal hgained.1 hgained.2) (by omega)
      · rw [or_iff_left hgained] at hordinal
        rw [hordinal]
        omega
    · -- the count stayed, so nothing was gained
      by_cases hgained : (reached : Int) < ordinal ∧ ordinal ≤ high
      · exact absurd (hordinal.mp (.inr hgained)).2 (by omega)
      · rwa [or_iff_left hgained] at hordinal
  | @lost low hle hold hafter hreached =>
    rw [hafter] at hordinal
    rcases hreached with rfl | ⟨-, rfl⟩
    · by_cases hlost : (reached : Int) < ordinal ∧ ordinal ≤ count
      · exact iff_of_true (hold ordinal hlost.1 hlost.2) (by omega)
      · rw [and_iff_left hlost] at hordinal
        rw [hordinal]
        omega
    · by_cases hlost : (low : Int) < ordinal ∧ ordinal ≤ reached
      · exact absurd (hordinal.mpr (by omega)).2 (not_not.mpr hlost)
      · rwa [and_iff_left hlost] at hordinal

/-- **Agreement is lost exactly if the instances move and the count stays.** This is what becomes of
work that is broken off after its first stroke. -/
theorem isRange_iff (h : Shift complete count before reached after)
    (hrange : IsRange count before) :
    IsRange reached after ↔ (reached = count → ∀ ordinal, after ordinal ↔ before ordinal) := by
  constructor
  · rintro hrange' rfl ordinal
    rw [hrange', hrange]
  · -- the count is either the one from before, and then nothing moved, or the target
    intro hkeeps ordinal
    have hordinal := hrange ordinal
    cases h with
    | @gained high hle hnew hafter hreached =>
      by_cases hsame : reached = count
      · rw [hkeeps hsame, hordinal, hsame]
      · obtain rfl := hreached.resolve_right fun hnot => hsame hnot.2
        rw [hafter, hordinal]
        omega
    | @lost low hle hold hafter hreached =>
      by_cases hsame : reached = count
      · rw [hkeeps hsame, hordinal, hsame]
      · obtain rfl := hreached.resolve_right fun hnot => hsame hnot.2
        rw [hafter, hordinal]
        omega

end Shift

/-! ### Tracked instances -/

/-- An instance of a process type of the release is tracked. Names stand for instances, and since a
name has one reading it stands for one only. -/
def HasInstance (release : Release) (type : String) (tracked : List String)
    (ordinal : Int) : Prop :=
  ∃ name, JobName.text? release.app release.version (.text type) (.int ordinal) = .ok name ∧
    name ∈ tracked

namespace Ledger

open World

variable {app : String} {blueprint : Blueprint} {release : Release} {type other command : String}
  {ledger moved : Ledger} {current target : Nat} {complete : Prop}

/-- The names of a range of instances are those that the range has ordinals for. -/
theorem exists_mem_instances_iff {environment : Environment} {order : Value} {first count : Nat}
    {name : String} :
    (∃ job ∈ (blueprint.template environment).instances (.text type) order first count,
        job.name? = .ok name) ↔
      ∃ n : Nat, first ≤ n ∧ n < first + count ∧
        JobName.text? blueprint.release.app blueprint.release.version (.text type) (.int n) =
          .ok name := by
  -- A job of the range has the ordinal it was made with, and every ordinal of the range made one.
  constructor
  · rintro ⟨job, hmem, hname⟩
    obtain ⟨n, hn, rfl⟩ := List.mem_map.mp hmem
    obtain ⟨hfirst, hlast⟩ := List.mem_range'_1.mp hn
    exact ⟨n, hfirst, hlast, hname⟩
  · rintro ⟨n, hfirst, hlast, hname⟩
    exact ⟨_, List.mem_map_of_mem (List.mem_range'_1.mpr ⟨hfirst, hlast⟩), hname⟩

/-- Each ordinal of a range that was placed has a name. -/
theorem Placed.exists_instance {environment : Environment} {order : Value} {first count : Nat}
    (h : Placed ((blueprint.template environment).instances (.text type) order first count)
      ledger moved)
    {ordinal : Int} (hfirst : first ≤ ordinal) (hlast : ordinal < first + count) :
    ∃ name, JobName.text? blueprint.release.app blueprint.release.version (.text type)
      (.int ordinal) = .ok name ∧ ∃ job ∈ (blueprint.template environment).instances (.text type)
        order first count, job.name? = .ok name := by
  obtain ⟨n, rfl⟩ := Int.eq_ofNat_of_zero_le (show 0 ≤ ordinal by omega)
  obtain ⟨names, hnames, -, -⟩ := h.exists_names
  have hmem : (blueprint.template environment).job (.text type) order n ∈
      (blueprint.template environment).instances (.text type) order first count :=
    List.mem_map_of_mem (List.mem_range'_1.mpr ⟨by omega, by omega⟩)
  obtain ⟨name, -, hname⟩ := Job.exists_name_of_mem hnames hmem
  exact ⟨name, hname, _, hmem, hname⟩

/-- **Instances that were placed are gained**, and none of them was tracked before. The job store
would have refused the name of one that was. -/
theorem Placed.hasInstance_iff {environment : Environment} {order : Value} {first count : Nat}
    (h : Placed ((blueprint.template environment).instances (.text type) order first count)
      ledger moved)
    (hsound : moved.IsSound) (other : String) (ordinal : Int) :
    (HasInstance blueprint.release other moved.tracked ordinal ↔
      HasInstance blueprint.release other ledger.tracked ordinal ∨
        other = type ∧ first ≤ ordinal ∧ ordinal < first + count) ∧
      (other = type ∧ first ≤ ordinal ∧ ordinal < first + count →
        ¬HasInstance blueprint.release other ledger.tracked ordinal) := by
  -- What is tracked after placing was tracked before or has been placed, and never both.
  refine ⟨⟨?_, ?_⟩, ?_⟩
  · rintro ⟨name, hname, hmem⟩
    rcases (h.mem_tracked hsound).1.mp hmem with hbefore | hplaced
    · exact .inl ⟨name, hname, hbefore⟩
    · -- a name tells its process type and its ordinal
      obtain ⟨n, hfirst, hlast, hname'⟩ := exists_mem_instances_iff.mp hplaced
      obtain ⟨-, -, htype, hordinal⟩ := JobName.fields_of_text? hname hname'
      rw [Value.text.inj htype, Value.int.inj hordinal]
      exact .inr ⟨rfl, by omega, by omega⟩
  · rintro (⟨name, hname, hbefore⟩ | ⟨rfl, hfirst, hlast⟩)
    · exact ⟨name, hname, (h.mem_tracked hsound).1.mpr (.inl hbefore)⟩
    · obtain ⟨name, hname, hjob⟩ := h.exists_instance hfirst hlast
      exact ⟨name, hname, (h.mem_tracked hsound).1.mpr (.inr hjob)⟩
  · rintro ⟨rfl, hfirst, hlast⟩ ⟨name, hname, hbefore⟩
    obtain ⟨name', hname', hjob⟩ := h.exists_instance hfirst hlast
    rw [hname] at hname'
    rw [← Except.ok.inj hname'] at hjob
    exact (h.mem_tracked hsound).2 hjob hbefore

/-- A name of an instance is among those of the ordinals if the instance is one of them. -/
theorem mem_instanceNames_iff {ordinals : List Nat} {given : List String}
    (h : InstanceNames release type ordinals given) {ordinal : Int} {name : String}
    (hname : JobName.text? release.app release.version (.text other) (.int ordinal) = .ok name) :
    name ∈ given ↔ other = type ∧ ∃ n ∈ ordinals, ordinal = (n : Nat) := by
  -- Along the ordinals and their names side by side.
  induction h with
  | nil => simp
  | @cons n first ordinals given hfirst _ ih =>
    rw [List.mem_cons, ih, List.exists_mem_cons_iff, and_or_left]
    refine or_congr_left ⟨?_, ?_⟩
    · rintro rfl
      obtain ⟨-, -, htype, hordinal⟩ := JobName.fields_of_text? hname hfirst
      exact ⟨Value.text.inj htype, Value.int.inj hordinal⟩
    · rintro ⟨rfl, rfl⟩
      rw [instanceName?, hname] at hfirst
      exact Except.ok.inj hfirst

/-- **Instances that were given up are lost**, and no others. -/
theorem hasInstance_retireAll {ordinals : List Nat} {given : List String}
    (h : InstanceNames release type ordinals given) (other : String) (ordinal : Int) :
    HasInstance release other (ledger.retireAll given).tracked ordinal ↔
      HasInstance release other ledger.tracked ordinal ∧
        ¬(other = type ∧ ∃ n ∈ ordinals, ordinal = (n : Nat)) := by
  constructor
  · rintro ⟨name, hname, hmem⟩
    obtain ⟨hleft, hbefore⟩ := mem_tracked_retireAll.mp hmem
    exact ⟨⟨name, hname, hbefore⟩, fun hlost => hleft ((mem_instanceNames_iff h hname).mpr hlost)⟩
  · rintro ⟨⟨name, hname, hbefore⟩, hleft⟩
    exact ⟨name, hname,
      mem_tracked_retireAll.mpr ⟨fun hlost => hleft ((mem_instanceNames_iff h hname).mp hlost),
        hbefore⟩⟩

/-- Instances whose names were tracked were there. -/
theorem hasInstance_of_instanceNames {ordinals : List Nat} {given : List String}
    (h : InstanceNames release type ordinals given)
    (htracked : ∀ name ∈ given, name ∈ ledger.tracked) {n : Nat} (hn : n ∈ ordinals) :
    HasInstance release type ledger.tracked n := by
  induction h with
  | nil => cases hn
  | @cons first name ordinals given hname _ ih =>
    rcases List.mem_cons.mp hn with rfl | hrest
    · exact ⟨name, hname, htracked name List.mem_cons_self⟩
    · exact ih (fun other hmem => htracked other (List.mem_cons_of_mem _ hmem)) hrest

/-- What happened to the instances of one process type, whose count moved; those of all others are
as they were. -/
structure Reached (complete : Prop) (release : Release) (type : String) (current reached : Nat)
    (ledger moved : Ledger) : Prop where
  own : Shift complete current (HasInstance release type ledger.tracked) reached
    (HasInstance release type moved.tracked)
  others : ∀ other, other ≠ type → ∀ ordinal,
    HasInstance release other moved.tracked ordinal ↔ HasInstance release other ledger.tracked
      ordinal

/-- A range above the count is gained by placing it. -/
theorem Placed.reached {environment : Environment} {order : Value} {count reached : Nat}
    (h : Placed ((blueprint.template environment).instances (.text type) order (current + 1) count)
      ledger moved) (hsound : moved.IsSound)
    (hreached : reached = current + count ∨ ¬complete ∧ reached = current) :
    Reached complete blueprint.release type current reached ledger moved where
  own := by
    refine .gained (Nat.le_add_right current count) ?_ ?_ hreached
    · exact fun ordinal hlt hle => (h.hasInstance_iff hsound type ordinal).2
        ⟨rfl, by omega, by omega⟩
    · intro ordinal
      rw [(h.hasInstance_iff hsound type ordinal).1]
      refine or_congr_right ⟨?_, fun hrange => ⟨rfl, by omega, by omega⟩⟩
      rintro ⟨-, hfirst, hlast⟩
      exact ⟨by omega, by omega⟩
  others := by
    intro other hne ordinal
    rw [(h.hasInstance_iff hsound other ordinal).1]
    exact or_iff_left fun hrange => hne hrange.1

/-- A range that ends at the count is lost by giving it up. -/
theorem reached_retireAll {low reached : Nat} {ordinals : List Nat} {given : List String}
    (hle : low ≤ current) (hordinals : ∀ n, n ∈ ordinals ↔ low < n ∧ n ≤ current)
    (hgiven : InstanceNames release type ordinals given)
    (htracked : ∀ name ∈ given, name ∈ ledger.tracked)
    (hreached : reached = low ∨ ¬complete ∧ reached = current) :
    Reached complete release type current reached ledger (ledger.retireAll given) where
  own := by
    -- the ordinals that were given up, as integers
    have hmem (ordinal : Int) : (∃ n ∈ ordinals, ordinal = (n : Nat)) ↔
        low < ordinal ∧ ordinal ≤ current := by
      constructor
      · rintro ⟨n, hn, rfl⟩
        have := (hordinals n).mp hn
        omega
      · rintro ⟨hlow, hhigh⟩
        obtain ⟨n, rfl⟩ := Int.eq_ofNat_of_zero_le (show 0 ≤ ordinal by omega)
        exact ⟨n, (hordinals n).mpr ⟨by omega, by omega⟩, rfl⟩
    refine .lost hle ?_ ?_ hreached
    · intro ordinal hlow hhigh
      obtain ⟨n, hn, rfl⟩ := (hmem ordinal).mpr ⟨hlow, hhigh⟩
      exact hasInstance_of_instanceNames hgiven htracked hn
    · intro ordinal
      rw [hasInstance_retireAll hgiven, hmem]
      exact and_congr_right fun _ => not_congr ⟨fun hlost => hlost.2, fun hlost => ⟨rfl, hlost⟩⟩
  others := by
    intro other hne ordinal
    rw [hasInstance_retireAll hgiven]
    exact and_iff_left fun hlost => hne hlost.1

/-- **Work that was not broken off moves the count together with the instances.** It does so in both
directions, and also where nothing had to be moved. -/
theorem Adjusted.reached (h : Adjusted app blueprint type command current target ledger moved)
    (hsound : ledger.IsSound) (happ : blueprint.release.app = .text app) :
    Reached True blueprint.release type current target ledger moved := by
  have hmoved := isSound_of_moves (h.moves happ) hsound
  -- Grown, shrunk or left alone; each of these moves one range, or none.
  cases h with
  | grown hlt henvironment hplaced => exact hplaced.reached hmoved (.inl (by omega))
  | shrunk hgt hordinals hgiven htracked =>
    exact reached_retireAll (Nat.le_of_lt hgt) hordinals hgiven
      (fun name hmem => (hsound.mem_trackedOf.mp (htracked name hmem)).2) (.inl rfl)
  | kept => exact ⟨.refl fun _ => Iff.rfl, fun _ _ _ => Iff.rfl⟩

/-- **Work that was broken off moves the instances only.** The quantity is written after the loop,
which was not left in the normal way. -/
theorem BrokenOff.reached {calm : Prop}
    (h : BrokenOff app blueprint type command calm current target ledger moved)
    (hsound : ledger.IsSound) (happ : blueprint.release.app = .text app) :
    Reached False blueprint.release type current current ledger moved := by
  -- Broken off before anything was done, while growing or while shrinking; the count stays in all
  -- three.
  cases h with
  | refused => exact ⟨.refl fun _ => Iff.rfl, fun _ _ _ => Iff.rfl⟩
  | @growing count _ middle _ _ hlt henvironment hplaced hstopped hreason =>
    have hmiddle := isSound_of_moves
      (hplaced.moves fun job hmem => app_of_mem_instances happ hmem) hsound
    -- a job that was scheduled but not tracked is no instance
    have htracked : moved.tracked = middle.tracked := by
      rcases hstopped with rfl | ⟨definition, -, -, rfl⟩
      · rfl
      · exact tracked_schedule middle definition
    obtain ⟨hown, hothers⟩ := hplaced.reached hmiddle (.inr ⟨not_false, rfl⟩)
    rw [← htracked] at hown hothers
    exact ⟨hown, hothers⟩
  | shrinking hrest hle hordinals hgiven htracked hreason =>
    exact reached_retireAll hle hordinals hgiven
      (fun name hmem => (hsound.mem_trackedOf.mp (htracked name hmem)).2) (.inr ⟨not_false, rfl⟩)

end Ledger

end Rollout
