import Rollout.Collaborators

/-!
# A cluster in memory

A scheduler that keeps what it was handed and takes every job to be running on one machine. A job
that is scheduled again takes the new definition and keeps its place.
-/

namespace Rollout

/-- What a scheduler in memory holds. It knows no more of a job than its definition, and forgets all
when it is gone. -/
structure Memory where
  machine : String
  jobs : Named Definition

/-- Refuses a job that is not scheduled. -/
def unknownJob (name : Value) : Failure :=
  if name.writable then .rejected (.unknownJob name) else .unwritable

namespace Memory

/-- The state that all jobs are in. -/
def running : Value := .text "running"

/-- Runs a job. -/
def schedule (definition : Definition) (memory : Memory) : Except Failure Unit × Memory :=
  (.ok (), { memory with jobs := memory.jobs.set definition.name definition })

/-- Runs the job of a name no longer. -/
def unschedule (name : Value) (memory : Memory) : Except Failure Unit × Memory :=
  match name with
  | .text s =>
    if memory.jobs.has s then (.ok (), { memory with jobs := memory.jobs.erase s })
    else (.error (unknownJob name), memory)
  -- These cannot serve as keys, so they are not even looked for.
  | .list _ | .dict _ => (.error .unsuitable, memory)
  | _ => (.error (unknownJob name), memory)

/-- What runs, in the order in which it was first scheduled. -/
def reports (memory : Memory) : List Report :=
  memory.jobs.names.map fun name => ⟨.text name, .text memory.machine, running⟩

@[simp] theorem schedule_fst (definition : Definition) (memory : Memory) :
    (memory.schedule definition).1 = .ok () := rfl

/-- A scheduled job is there afterwards, and the others as before. -/
theorem mem_names_schedule (definition : Definition) (memory : Memory) (name : String) :
    name ∈ (memory.schedule definition).2.jobs.names ↔
      name = definition.name ∨ name ∈ memory.jobs.names :=
  Named.mem_names_set definition.name name definition memory.jobs

/-- A job that runs is taken away when it is unscheduled. -/
theorem unschedule_of_mem {memory : Memory} {name : String} (h : name ∈ memory.jobs.names) :
    memory.unschedule (.text name) =
      (.ok (), { memory with jobs := memory.jobs.erase name }) := by
  simp [unschedule, (Named.has_iff memory.jobs name).2 h]

/-- A job that does not run cannot be unscheduled. -/
theorem unschedule_of_not_mem {memory : Memory} {name : String} (h : name ∉ memory.jobs.names) :
    memory.unschedule (.text name) =
      (.error (.rejected (.unknownJob (.text name))), memory) := by
  have : memory.jobs.has name = false := by
    rw [Bool.eq_false_iff]
    exact fun hmem => h ((Named.has_iff memory.jobs name).1 hmem)
  simp [unschedule, this, unknownJob]

end Memory

end Rollout
