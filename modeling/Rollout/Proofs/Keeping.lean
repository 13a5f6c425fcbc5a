import Rollout.Proofs.Parts

/-!
# Plans that keep to a part

A plan *keeps to* a part of a ledger if its calls are within the part and if it goes on in the same
way after answers that are alike there (`Plan.KeepsTo`). So it cannot tell ledgers apart that are
the same on the part.

Two kinds of plans are of interest here:

* scaling a release keeps to any part that covers the release (`Scale.keepsTo_scale`). It has all
  jobs of the application listed when it scales down, and looks up the instances of its own version
  only;
* a run of a cleanup keeps to any part that has the names of its jobs (`Cleanup.keepsTo_run`).
-/

namespace Rollout

variable {α β : Type} {part : Part}

/-- All calls of the plan are within the part, it goes on in the same way after answers that are
alike, and it can end with certain results only. -/
inductive Plan.KeepsTo (part : Part) {α : Type} (results : α → Prop) :
    Plan Collaborators α → Prop where
  /-- There is nothing left to do. -/
  | done {result : α} (hresult : results result) : KeepsTo part results (.done result)
  /-- A call, and how it goes on. -/
  | call {request : Call} {next : request.Answer → Plan Collaborators α}
      (hwithin : request.IsWithin part)
      (hsame : ∀ answer other, request.Alike part answer other → next answer = next other)
      (hrest : ∀ answer, KeepsTo part results (next answer)) :
      KeepsTo part results (.call request next)

/-- **A plan keeps to a part if its first half does, and then its second half.** The second half
need keep to it only for results that the first one can have. -/
theorem Plan.KeepsTo.bind {results : α → Prop} {results' : β → Prop} {plan : Plan Collaborators α}
    {next : α → Plan Collaborators β} (h : plan.KeepsTo part results)
    (hnext : ∀ result, results result → (next result).KeepsTo part results') :
    (plan >>= next).KeepsTo part results' := by
  -- On the first half, call by call: what it does after alike answers it still does with the second
  -- half behind it.
  induction h with
  | done hresult => exact hnext _ hresult
  | call hwithin hsame _ ih =>
    exact .call hwithin (fun answer other halike => congrArg (·.bind next)
      (hsame answer other halike)) ih

/-- A single call within the part, if its answer is all that counts. -/
theorem Call.keepsTo_ask (request : Call) (hwithin : request.IsWithin part)
    (hsame : ∀ answer other, request.Alike part answer other → answer = other) :
    request.ask.KeepsTo part fun _ => True :=
  .call hwithin (fun answer other halike => congrArg Plan.done (hsame answer other halike))
    fun _ => .done trivial

/-! ### Work -/

/-- Work that keeps to a part, whatever it ends with. Work is a plan that may fail, and after a
failure nothing more is asked. -/
def Action.KeepsTo (part : Part) (work : Action α) : Prop :=
  Plan.KeepsTo part (fun _ => True) work.attempt

namespace Action.KeepsTo

variable {work : Action α} {next : α → Action β} {release : Release} {event : Event}

theorem of_pure (value : α) : Action.KeepsTo part (pure value) := .done trivial

theorem of_throw (failure : Failure) : Action.KeepsTo part (throw failure : Action α) :=
  .done trivial

theorem bind (h : Action.KeepsTo part work) (hnext : ∀ value, Action.KeepsTo part (next value)) :
    Action.KeepsTo part (work >>= next) := by
  refine Plan.KeepsTo.bind h fun result _ => ?_
  cases result with
  | ok value => exact hnext value
  | error failure => exact .done trivial

theorem ofExcept_bind {known : Except Failure α}
    (hnext : ∀ value, known = .ok value → Action.KeepsTo part (next value)) :
    Action.KeepsTo part (Work.ofExcept known >>= next) := by
  cases known with
  | ok value => exact hnext value rfl
  | error failure => exact .done trivial

/-- **Work that starts by listing jobs** keeps to a part if it goes on in the same way wherever the
same is found. -/
theorem list_bind {app : String} {next : List Job → Action β}
    (hsame : ∀ jobs others, part.FindsSame jobs others → next jobs = next others)
    (hrest : ∀ jobs, Action.KeepsTo part (next jobs)) :
    Action.KeepsTo part (Action.list (.text app) >>= next) := by
  refine .call ⟨app, rfl⟩ ?_ fun answer => ?_
  · rintro _ _ ⟨jobs, others, rfl, rfl, hfinds⟩
    exact hsame jobs others hfinds
  · cases answer with
    | ok jobs => exact hrest jobs
    | error failure => exact .done trivial

theorem of_unschedule {given : String} (h : part.names given = true) :
    Action.KeepsTo part (Action.unschedule given) :=
  Call.keepsTo_ask (.unschedule (.text given)) ⟨given, rfl, h⟩ fun _ _ halike => halike

theorem of_remove {job : Job} {given : String} (hname : job.name? = .ok given)
    (h : part.names given = true) : Action.KeepsTo part (Action.remove job) :=
  Call.keepsTo_ask (.remove job) ⟨given, hname, h⟩ fun _ _ halike => halike

theorem of_wait (seconds : Binary64) : Action.KeepsTo part (Action.wait seconds) :=
  Call.keepsTo_ask (.wait seconds) trivial fun _ _ halike => halike

theorem of_log (event : Event) : Action.KeepsTo part (Action.log event) :=
  .call trivial (fun _ _ halike => by rw [halike]) fun answer => by
    cases answer <;> exact .done trivial

end Action.KeepsTo

/-! ### Scaling -/

/-- The part has all that belongs to a release: every name that one of its jobs can have, and what
is wanted of its process types. -/
structure Part.Covers (part : Part) (release : Release) : Prop where
  names : ∀ type ordinal given,
    JobName.text? release.app release.version type ordinal = .ok given → part.names given = true
  wanted : part.wanted = true

namespace Scale

variable {blueprint : Blueprint} {type : String} {process : ProcessType} {target : Nat}
  {formation : Formation}

/-- A textual job of the release is placed within the part. -/
theorem keepsTo_place {job : Job} (htextual : job.IsTextual)
    (hname : ∀ given, job.name? = .ok given → part.names given = true) :
    Action.KeepsTo part (Placement.place job) := by
  refine .ofExcept_bind fun definition hdefinition => ?_
  -- What is scheduled and what is tracked go by one name.
  have hgiven := Placement.name_of_definition? hdefinition
  refine .bind (Call.keepsTo_ask (.schedule definition) (hname _ hgiven)
    fun _ _ halike => halike) fun _ => ?_
  exact Call.keepsTo_ask (.add job) ⟨htextual, _, hgiven, hname _ hgiven⟩
    fun _ _ halike => halike

theorem keepsTo_placeAll {jobs : List Job} (htextual : ∀ job ∈ jobs, job.IsTextual)
    (hname : ∀ job ∈ jobs, ∀ given, job.name? = .ok given → part.names given = true) :
    Action.KeepsTo part (Placement.placeAll jobs) := by
  induction jobs with
  | nil => exact .of_pure ()
  | cons job rest ih =>
    refine .bind (keepsTo_place (htextual job List.mem_cons_self) (hname job List.mem_cons_self))
      fun _ => ?_
    exact ih (fun other hmem => htextual other (List.mem_cons_of_mem _ hmem))
      fun other hmem => hname other (List.mem_cons_of_mem _ hmem)

/-- Growing places jobs of the release. -/
theorem keepsTo_growTo (hcovers : part.Covers blueprint.release) (htextual : blueprint.IsTextual)
    (hcommand : ∃ s, process.command = .text s) :
    Action.KeepsTo part (growTo blueprint type process target) := by
  refine .ofExcept_bind fun environment henvironment => .ofExcept_bind fun current _ => ?_
  -- New instances have ordinals of their own, and all are jobs of the release.
  rw [placeFrom_eq_placeAll]
  refine keepsTo_placeAll (fun job hmem => ?_) fun job hmem given hname => ?_
  · obtain ⟨n, -, rfl⟩ := List.mem_map.mp hmem
    exact ⟨⟨environment, rfl, Environment.nodup_of_ofVars henvironment⟩, htextual.1, htextual.2,
      hcommand⟩
  · obtain ⟨n, -, rfl⟩ := List.mem_map.mp hmem
    exact hcovers.names _ _ given hname

theorem ofExcept_bind_congr {known : Except Failure α} {next other : α → Action β}
    (h : ∀ value, known = .ok value → next value = other value) :
    (Work.ofExcept known >>= next) = (Work.ofExcept known >>= other) := by
  cases known with
  | error failure => rfl
  | ok value => exact h value rfl

/-- Withdrawing instances does the same wherever the same of them are found. -/
theorem withdrawAbove_congr {release : Release} {tracked kept : List (String × Job)}
    (hnames : ∀ type ordinal given,
      JobName.text? release.app release.version type ordinal = .ok given →
        part.names given = true)
    (h : ∀ name, part.names name = true → find? tracked name = find? kept name) (count : Nat) :
    withdrawAbove release tracked type target count =
      withdrawAbove release kept type target count := by
  induction count with
  | zero => rfl
  | succ count ih =>
    -- Each ordinal looks up one name of the release, and on these the two tables agree.
    have hfirst : withdrawOrdinal release tracked type (target + count + 1) =
        withdrawOrdinal release kept type (target + count + 1) := by
      rw [withdrawOrdinal, withdrawOrdinal]
      refine ofExcept_bind_congr fun given hgiven => ?_
      rw [h given (hnames _ _ given hgiven)]
    rw [withdrawAbove, withdrawAbove, hfirst, ih]

theorem keepsTo_withdrawAbove {release : Release} {jobs : List Job}
    {tracked : List (String × Job)} (hcovers : part.Covers release)
    (htracked : byName jobs = .ok tracked) (count : Nat) :
    Action.KeepsTo part (withdrawAbove release tracked type target count) := by
  induction count with
  | zero => exact .of_pure ()
  | succ count ih =>
    refine .bind (.ofExcept_bind fun given hgiven => ?_) fun _ => ih
    have hcovered := hcovers.names _ _ given hgiven
    cases hfind : find? tracked given with
    | none => exact .of_throw _
    | some job =>
      -- the job that is found has the name that was looked for
      have hname := (Scale.listed_of_find? htracked hfind).2
      refine .ofExcept_bind fun name hjob => ?_
      rw [hname] at hjob
      obtain rfl := Except.ok.inj hjob
      exact .bind (.of_unschedule hcovered) fun _ => .of_remove hname hcovered

/-- Shrinking withdraws instances of the release, whatever else is listed. -/
theorem keepsTo_shrinkTo {release : Release} {app : String} (hcovers : part.Covers release)
    (happ : release.app = .text app) :
    Action.KeepsTo part (shrinkTo release type process target) := by
  rw [shrinkTo, happ]
  -- All jobs of the application are listed, but only those of the release are looked up: here the
  -- part need not have the others.
  refine .list_bind ?_ fun jobs => .ofExcept_bind fun tracked htracked => .ofExcept_bind
    fun current _ => keepsTo_withdrawAbove hcovers htracked _
  rintro jobs others ⟨tracked, kept, htracked, hkept, hfind⟩
  rw [htracked, hkept]
  show (Work.ofExcept process.quantity.count? >>= fun current =>
      withdrawAbove release tracked type target (current - target)) =
    (Work.ofExcept process.quantity.count? >>= fun current =>
      withdrawAbove release kept type target (current - target))
  simp only [withdrawAbove_congr hcovers.names hfind]

theorem keepsTo_adjust {app : String} (hcovers : part.Covers blueprint.release)
    (happ : blueprint.release.app = .text app) (htextual : blueprint.IsTextual)
    (hcommand : ∃ s, process.command = .text s) :
    Action.KeepsTo part (adjust blueprint type process target) := by
  rw [adjust]
  split
  · exact keepsTo_growTo hcovers htextual hcommand
  · exact keepsTo_shrinkTo hcovers happ
  · exact .of_pure ()

theorem keepsTo_logChange (release : Release) :
    Action.KeepsTo part (logChange release type process target) := by
  rw [logChange]
  split
  · exact .ofExcept_bind fun _ _ => .ofExcept_bind fun _ _ => .of_log _
  · exact .of_pure ()

/-- **Scaling a process type** keeps to the part, and leaves its command alone. The command is
needed by the next request, which may place jobs with it. -/
theorem keepsTo_scaleType {app : String} (hcovers : part.Covers blueprint.release)
    (happ : blueprint.release.app = .text app) (htextual : blueprint.IsTextual)
    (hcommand : ∃ s, process.command = .text s) :
    (scaleType blueprint type process target).KeepsTo part fun result =>
      ∃ s, result.1.command = .text s := by
  refine .bind (Action.KeepsTo.bind (keepsTo_adjust hcovers happ htextual hcommand)
    fun _ => keepsTo_logChange blueprint.release) fun changed _ => ?_
  -- The process is only replaced where the change went well, and then by one with the same command.
  cases changed with
  | error failure => exact .done hcommand
  | ok _ =>
    exact .bind (Call.keepsTo_ask
      (.update (process.scaled target blueprint.release.app)) hcovers.wanted
      fun _ _ halike => halike) fun kept _ => .done hcommand

theorem keepsTo_scaleTypes {app : String} (hcovers : part.Covers blueprint.release)
    (happ : blueprint.release.app = .text app) (htextual : blueprint.IsTextual)
    (request : ScaleRequest) (hformation : formation.IsTextual) :
    (scaleTypes blueprint request formation).KeepsTo part fun result =>
      result.formation.IsTextual := by
  -- On the request. The formation changes from type to type, so what is kept about it goes through
  -- the induction.
  induction request generalizing formation with
  | nil => exact .done hformation
  | cons first rest ih =>
    obtain ⟨type, target⟩ := first
    rw [scaleTypes]
    split
    · exact ih hformation
    · next process hknown =>
      obtain ⟨entry, hmem, -, rfl⟩ := Value.exists_mem_of_find? hknown
      refine .bind (keepsTo_scaleType hcovers happ htextual (hformation entry hmem))
        fun result hcommand => ?_
      -- the formation stays textual, so the next types are scaled like this one
      have hreplaced : Formation.IsTextual (formation.replace type result.1) := by
        intro named hnamed
        rcases Formation.mem_or_of_mem_replace named hnamed with hold | hnew
        · exact hformation named hold
        · rw [hnew]
          exact hcommand
      obtain ⟨process, failure | _⟩ := result
      · exact .done hreplaced
      · exact ih hreplaced

/-- **Scaling a release keeps to every part that covers it**, and leaves a textual formation. A
request that is not valid says nothing at all. -/
theorem keepsTo_scale {app : String} (hcovers : part.Covers blueprint.release)
    (happ : blueprint.release.app = .text app) (htextual : blueprint.IsTextual)
    (quantities : List (Value × Value)) (hformation : formation.IsTextual) :
    (scale blueprint quantities formation).KeepsTo part fun result =>
      result.formation.IsTextual := by
  rw [scale_eq]
  split
  · exact .done hformation
  · exact keepsTo_scaleTypes hcovers happ htextual _ hformation

end Scale

/-! ### Cleaning up -/

namespace Cleanup

variable {cleanup : Cleanup} {progress : Progress} {job : Job}

theorem keepsTo_withRetries {delay : Binary64} {step : Action Unit}
    (h : Action.KeepsTo part step) (retries : Nat) :
    Action.KeepsTo part (withRetries delay step retries) := by
  -- Each try is the step itself, and between two tries there is only a wait.
  induction retries with
  | zero => exact h
  | succ retries ih =>
    refine Plan.KeepsTo.bind h fun tried _ => ?_
    cases tried with
    | ok _ => exact .done trivial
    | error failure =>
      refine Plan.KeepsTo.bind (Action.KeepsTo.of_wait delay) fun waited _ => ?_
      match waited with
      | .error _ => exact .done trivial
      | .ok true => exact .done trivial
      | .ok false => exact ih

/-- Retiring a job keeps to a part that has its name. -/
theorem keepsTo_retire {given : String} (hname : job.name? = .ok given)
    (hgiven : part.names given = true) : Action.KeepsTo part (cleanup.retire job) := by
  refine .bind (keepsTo_withRetries (.ofExcept_bind fun name hjob => ?_) _)
    fun _ => keepsTo_withRetries (.of_remove hname hgiven) _
  -- The name is worked out anew for every try and is always the same.
  rw [hname] at hjob
  obtain rfl := Except.ok.inj hjob
  exact .of_unschedule hgiven

theorem keepsTo_finish (phase : Phase) (event : Event) :
    (finish progress phase event).KeepsTo part fun _ => True := by
  refine .bind (Action.KeepsTo.of_log event) fun logged _ => ?_
  cases logged <;> exact .done trivial

theorem keepsTo_stopAt (failure : Failure) :
    (cleanup.stopAt progress job failure).KeepsTo part fun _ => True := by
  refine .bind (Call.keepsTo_ask .cancelled trivial fun _ _ halike => halike)
    fun cancelled _ => ?_
  cases job.name? with
  | error crash => exact .done trivial
  | ok name =>
    dsimp only
    split <;> exact keepsTo_finish _ _

/-- Sweeping goes from one job to the next. -/
theorem keepsTo_sweep {jobs : List Job}
    (hjobs : ∀ job ∈ jobs, ∃ given, job.name? = .ok given ∧ part.names given = true) :
    (cleanup.sweep progress jobs).KeepsTo part fun _ => True := by
  -- On the jobs that are left; the progress grows on the way and plays no role.
  induction jobs generalizing progress with
  | nil => exact keepsTo_finish _ _
  | cons job rest ih =>
    refine .bind (Call.keepsTo_ask .cancelled trivial fun _ _ halike => halike)
      fun cancelled _ => ?_
    split
    · exact keepsTo_finish _ _
    · obtain ⟨given, hname, hgiven⟩ := hjobs job List.mem_cons_self
      refine .bind (keepsTo_retire hname hgiven) fun retired _ => ?_
      cases retired with
      | error failure => exact keepsTo_stopAt failure
      | ok _ => exact ih fun other hmem => hjobs other (List.mem_cons_of_mem _ hmem)

/-- **A run of a cleanup keeps to every part that has the names of its jobs.** It says nothing of
any other job, and lists none. -/
theorem keepsTo_run
    (hjobs : ∀ job ∈ cleanup.stale, ∃ given, job.name? = .ok given ∧ part.names given = true) :
    (cleanup.run progress).KeepsTo part fun _ => True := by
  refine .bind (Call.keepsTo_ask (.wait cleanup.grace) trivial fun _ _ halike => halike)
    fun waited _ => ?_
  match waited with
  | .error failure => exact .done trivial
  | .ok true => exact keepsTo_finish _ _
  | .ok false => exact keepsTo_sweep hjobs

end Cleanup

end Rollout
