import BitSerial.CommandLine.Commands

/-!
# Transcripts

A dialogue that asks for no files says and complains the same in every world, and ends
the same way.
-/

namespace BitSerial

namespace World

/-- A world with more lines printed and complained with. -/
def tell (world : World) (lines complaints : List String) : World :=
  { world with
    output := world.output ++ lines.toArray
    complaints := world.complaints ++ complaints.toArray }

@[simp]
theorem tell_nil (world : World) : world.tell [] [] = world := by
  rw [tell, Array.append_empty, Array.append_empty]

@[simp]
theorem tell_tell (world : World) (lines complaints more moreComplaints : List String) :
    (world.tell lines complaints).tell more moreComplaints =
      world.tell (lines ++ more) (complaints ++ moreComplaints) := by
  simp [tell]

theorem perform_say {α : Type} (world : World) (line : String) (next : Unit → Dialogue α) :
    world.perform (.say line next) = (world.tell [line] []).perform (next ()) := by
  rw [perform, tell, Array.append_empty, ← Array.push_eq_append]

theorem perform_complain {α : Type} (world : World) (line : String) (next : Unit → Dialogue α) :
    world.perform (.complain line next) = (world.tell [] [line]).perform (next ()) := by
  rw [perform, tell, Array.append_empty, ← Array.push_eq_append]

/-- What comes next is performed in the world that a result left behind. -/
theorem perform_next {α β : Type} (world : World) (dialogue : Dialogue α)
    (next : α → Dialogue β) :
    world.perform (dialogue >>= next) =
      match world.perform dialogue with
      | (.ok value, after) => after.perform (next value)
      | (.error code, after) => (.error code, after) :=
  world.perform_bind dialogue next

end World

namespace Dialogue

variable {α β : Type} {fine : String → Prop}

/-- What comes next may be taken as one. -/
theorem bind_assoc {γ : Type} (dialogue : Dialogue α) (next : α → Dialogue β)
    (last : β → Dialogue γ) :
    dialogue >>= next >>= last = dialogue >>= fun value => next value >>= last := by
  show (dialogue.bind next).bind last = dialogue.bind fun value => (next value).bind last
  induction dialogue with
  | result value => rfl
  | exit code => rfl
  | say line _ ih => exact congrArg (Dialogue.say line) (funext ih)
  | complain line _ ih => exact congrArg (Dialogue.complain line) (funext ih)
  | read path _ ih => exact congrArg (Dialogue.read path) (funext ih)
  | write path text _ ih => exact congrArg (Dialogue.write path text) (funext ih)

/-- A dialogue that asks for no files and whose complaints are all of a kind. -/
inductive Tells (fine : String → Prop) : Dialogue α → Prop
  | result (value : α) : Tells fine (.result value)
  | exit (code : UInt32) : Tells fine (.exit code)
  | say (line : String) {next : Unit → Dialogue α} (rest : Tells fine (next ())) :
      Tells fine (.say line next)
  | complain {line : String} {next : Unit → Dialogue α} (isFine : fine line)
      (rest : Tells fine (next ())) : Tells fine (.complain line next)

theorem Tells.bind {dialogue : Dialogue α} {next : α → Dialogue β} (front : Tells fine dialogue)
    (behind : ∀ value, Tells fine (next value)) : Tells fine (dialogue >>= next) := by
  induction front with
  | result value => exact behind value
  | exit code => exact .exit code
  | say line _ ih => exact .say line ih
  | complain isFine _ ih => exact .complain isFine ih

/-- Such a dialogue has a transcript of its own. -/
theorem Tells.perform {dialogue : Dialogue α} (tells : Tells fine dialogue) :
    ∃ outcome lines complaints, (∀ complaint ∈ complaints, fine complaint) ∧
      ∀ world : World, world.perform dialogue = (outcome, world.tell lines complaints) := by
  induction tells with
  | result value =>
      refine ⟨.ok value, [], [], List.forall_mem_nil _, ?_⟩
      intro world
      rw [World.tell_nil]
      rfl
  | exit code =>
      refine ⟨.error code, [], [], List.forall_mem_nil _, ?_⟩
      intro world
      rw [World.tell_nil]
      rfl
  | say line _ ih =>
      obtain ⟨outcome, lines, complaints, allFine, performs⟩ := ih
      refine ⟨outcome, line :: lines, complaints, allFine, ?_⟩
      intro world
      rw [World.perform_say, performs, World.tell_tell]
      rfl
  | @complain line _ isFine _ ih =>
      obtain ⟨outcome, lines, complaints, allFine, performs⟩ := ih
      refine ⟨outcome, lines, line :: complaints, List.forall_mem_cons.mpr ⟨isFine, allFine⟩, ?_⟩
      intro world
      rw [World.perform_complain, performs, World.tell_tell]
      rfl

theorem tells_printLines (lines : List String) : Tells fine (printLines lines) := by
  induction lines with
  | nil => exact .result ()
  | cons line rest ih => exact .say line ih

end Dialogue

end BitSerial
