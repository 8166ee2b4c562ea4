import MeshWatch.Mesh.Sweep
import MeshWatch.Monitor

/-!
# Traffic

What a monitor goes through, as data: broker messages, and sweeps of its mesh in
between. Nothing is said of the topics and the bodies, nor of the times.

- `after_append`: a history may be cut in two anywhere.
-/

namespace MeshWatch.Monitor

/-- What comes to a monitor. -/
inductive Input where
  | message (topic : String) (body : Bytes) (tick : Tick)
  | sweep

/-- An input and the time at which it comes. -/
structure Step where
  input : Input
  now : Moment

/-- Does one step, and tells what it told and what became of a message. -/
def perform (m : Monitor) (s : Step) : Monitor × Journal × Option Outcome :=
  match s.input with
  | .message topic body tick =>
    let (m, told, outcome) := m.receive topic body s.now tick
    (m, told, some outcome)
  | .sweep =>
    let (mesh, removed) := m.mesh.sweep s.now
    ({ m with mesh := mesh }, Mesh.sweepJournal removed, none)

/-- The monitor after several steps. -/
def after (m : Monitor) (steps : List Step) : Monitor :=
  steps.foldl (fun m s => (m.perform s).1) m

@[simp] theorem after_nil (m : Monitor) : m.after [] = m := rfl

@[simp] theorem after_cons (m : Monitor) (s : Step) (steps : List Step) :
    m.after (s :: steps) = (m.perform s).1.after steps := rfl

theorem after_append (m : Monitor) (steps more : List Step) :
    m.after (steps ++ more) = (m.after steps).after more := List.foldl_append

end MeshWatch.Monitor
