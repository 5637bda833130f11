import BitSerial.Proofs.CommandLine.Transcripts
import BitSerial.Proofs.Text.Numerals

/-!
# Runs

A run and the making of an image, taken apart into what is read, what is written, and
what is only said.  Once a program has been read, a run asks for no files, and does not
complain of a source.
-/

namespace BitSerial

namespace CommandLine

open Dialogue

variable {geometry : Geometry} {world : World} {path source : String}

/-! ## Complaints -/

/-- Whether a complaint is that a source was not assembled. -/
def BlamesSource (complaint : String) : Prop :=
  "❌ Assembly error: ".toList <+: complaint.toList

theorem blamesSource_message (message : String) :
    BlamesSource ("❌ Assembly error: " ++ message) := by
  rw [BlamesSource, String.toList_append]
  exact List.prefix_append _ _

theorem not_blamesSource {reason : String} (other : reason.toList.head? ≠ some 'A') :
    ¬BlamesSource ("❌ " ++ reason) := by
  rintro ⟨rest, begins⟩
  rw [String.toList_append] at begins
  have start : 'A' :: "ssembly error: ".toList ++ rest = reason.toList :=
    (List.append_right_inj "❌ ".toList).mp begins
  rw [← start] at other
  exact other rfl

theorem tells_fail {α : Type} {reason : String} (other : reason.toList.head? ≠ some 'A') :
    Tells (¬BlamesSource ·) (fail reason : Dialogue α) :=
  .complain (not_blamesSource other) (.exit 1)

/-- What is said of an executed instruction begins with its address. -/
theorem not_blamesSource_trace (place : Nat) (mnemonic : String) :
    ¬BlamesSource (toString place ++ ": " ++ mnemonic) := by
  rintro ⟨rest, begins⟩
  have spelled : (toString place).toList = Numeral.decimal place := by
    simp [Numeral.decimal, Nat.repr]
  rw [String.toList_append, String.toList_append, spelled] at begins
  obtain ⟨digit, digits, split⟩ := List.exists_cons_of_ne_nil (Numeral.decimal_ne_nil place)
  have isDigit := Numeral.isDecimal_of_mem_decimal digit (split ▸ List.mem_cons_self)
  rw [split] at begins
  obtain ⟨same, -⟩ := List.cons.inj begins
  rw [← same] at isDigit
  revert isDigit
  decide

/-! ## Running what was read -/

theorem tells_stepThen {α : Type} (trace : Bool) (machine : Machine geometry)
    {next : Machine geometry → Dialogue α}
    (tells : ∀ after, Tells (¬BlamesSource ·) (next after)) :
    Tells (¬BlamesSource ·) (stepThen trace machine next) := by
  rw [stepThen]
  dsimp only
  apply (tells_printLines _).bind
  intro _
  cases machine.step.1 with
  | error error => exact tells_fail (by simp)
  | ok instruction =>
      dsimp only
      cases trace with
      | false => exact tells _
      | true =>
          rw [if_pos rfl]
          apply Tells.complain
          · exact not_blamesSource_trace _ _
          · exact tells _

theorem tells_steps (trace : Bool) (count : Nat) (machine : Machine geometry) :
    Tells (¬BlamesSource ·) (steps trace count machine) := by
  induction count generalizing machine with
  | zero => exact .result machine
  | succ count ih =>
      rw [steps]
      cases machine.state with
      | halted => exact .result machine
      | running => exact tells_stepThen trace machine ih

/-- A geometry that can be built is refused only for want of room. -/
theorem eq_capacity_of_build (valid : geometry.Valid) {error : MachineError}
    (refused : Machine.build? geometry = .error error) : error = .capacity := by
  obtain ⟨checked, validated⟩ := Geometry.validate_eq_ok_iff.mpr valid
  rw [Machine.build?, validated] at refused
  dsimp only at refused
  split at refused
  · cases refused
  · exact (Except.error.inj refused).symm

/-- A run of a program that was read asks for no files. -/
theorem tells_execute (valid : geometry.Valid) (trace : Bool) (program : Program)
    (maxCycles : Nat) :
    Tells (¬BlamesSource ·) (execute geometry trace program maxCycles) := by
  rw [execute]
  cases built : Machine.build? geometry with
  | error error =>
      rw [eq_capacity_of_build valid built]
      refine .complain ?_ (.exit 101)
      rw [BlamesSource]
      decide
  | ok fresh =>
      show Tells _ (orFail _ (fresh.loadProgram program).1 >>= _)
      apply Tells.bind
      · cases (fresh.loadProgram program).1 with
        | ok _ => exact .result ()
        | error error => exact tells_fail (by simp)
      intro _
      apply (tells_printLines _).bind
      intro _
      apply (tells_steps trace maxCycles (fresh.loadProgram program).2).bind
      intro machine
      apply (tells_printLines _).bind
      intro _
      cases machine.isRunning with
      | false => exact .result ()
      | true => exact tells_printLines _

/-- A run of a program that was read.  Without any words there is nothing to run. -/
def runRead (geometry : Geometry) (trace : Bool) (program : Program) (maxCycles : Nat) :
    Dialogue Unit :=
  if program.words.isEmpty then fail "No instructions to execute"
  else execute geometry trace program maxCycles

theorem tells_runRead (valid : geometry.Valid) (trace : Bool) (program : Program)
    (maxCycles : Nat) :
    Tells (¬BlamesSource ·) (runRead geometry trace program maxCycles) := by
  rw [runRead]
  split
  · exact tells_fail (by simp)
  · exact tells_execute valid trace program maxCycles

/-! ## Commands as dialogues -/

theorem checked_eq_runRead (geometry : Geometry) (trace : Bool) (program : Program)
    (maxCycles : Nat) :
    ((do
      if program.words.isEmpty then fail "No instructions to execute"
      return (geometry, program)) >>= fun taken =>
        execute taken.1 trace taken.2 maxCycles) = runRead geometry trace program maxCycles := by
  rw [runRead]
  cases program.words.isEmpty <;> rfl

theorem runProgram_eq_of_isSource (isSource : isSource path = true) (trace : Bool)
    (maxCycles : Nat) :
    runProgram geometry trace path maxCycles =
      printLine ("🔧 Running: " ++ path) >>= fun _ =>
        readSource geometry path >>= fun program =>
          printLine s!"📝 Assembled {program.size} words at base {program.base}" >>= fun _ =>
            runRead geometry trace program maxCycles := by
  rw [runProgram, readInstructions, readProgram, if_pos isSource]
  simp only [Dialogue.bind_assoc]
  refine congrArg _ (funext fun _ => congrArg _ (funext fun program => ?_))
  refine congrArg _ (funext fun _ => ?_)
  exact checked_eq_runRead geometry trace program maxCycles

theorem runProgram_eq_of_not_isSource (isImage : isSource path = false) (trace : Bool)
    (maxCycles : Nat) :
    runProgram geometry trace path maxCycles =
      printLine ("🔧 Running: " ++ path) >>= fun _ =>
        readImage path >>= fun image =>
          printLine s!"📂 Loaded {image.program.size} words" >>= fun _ =>
            runRead { geometry with mainWords := image.mainWords } trace image.program
              maxCycles := by
  rw [runProgram, readInstructions, readProgram, if_neg (Bool.eq_false_iff.mp isImage)]
  simp only [Dialogue.bind_assoc]
  refine congrArg _ (funext fun _ => congrArg _ (funext fun image => ?_))
  refine congrArg _ (funext fun _ => ?_)
  exact checked_eq_runRead _ trace image.program maxCycles

/-- Write the image of a program, as making one does once it has the program. -/
def saveImage (geometry : Geometry) (target : String) (program : Program) : Dialogue Unit := do
  orFail (fun fault => "Failed to save image: " ++ (ImageError.inaccessible fault).message)
    (← writeFile target (Image.ofProgram program geometry.mainWords).print)
  printLine ("✓ Saved to " ++ target)

theorem assembleFile_eq {output : Option String} {target : String}
    (isTarget : output.getD (imagePath source) = target) :
    assembleFile geometry source output =
      if samePath target source then fail ("Output path would overwrite the source: " ++ target)
      else
        printLine ("📝 Assembling: " ++ source ++ " → " ++ target) >>= fun _ =>
          readSource geometry source >>= fun program =>
            printLine s!"✓ Assembled {program.size} words at base {program.base}" >>= fun _ =>
              saveImage geometry target program := by
  rw [assembleFile, isTarget]
  cases samePath target source <;> rfl

/-! ## Reading and writing -/

theorem perform_printLine (world : World) {α : Type} (line : String)
    (next : Unit → Dialogue α) :
    world.perform (printLine line >>= next) = (world.tell [line] []).perform (next ()) :=
  world.perform_say line next

theorem perform_orFail {ε α : Type} (world : World) (reason : ε → String) (result : Except ε α) :
    world.perform (orFail reason result) =
      match result with
      | .ok value => (.ok value, world)
      | .error error => (.error 1, world.tell [] ["❌ " ++ reason error]) := by
  cases result with
  | ok value => rfl
  | error error =>
      rw [orFail, fail, World.perform_complain]
      rfl

/-- Reading a source ends in a program or in one complaint. -/
theorem perform_readSource (world : World) (geometry : Geometry) (path : String) :
    world.perform (readSource geometry path) =
      match world.disk.read path with
      | .error fault =>
          (.error 1, world.tell [] ["❌ " ++ ("Failed to read file: " ++ fault.message)])
      | .ok text =>
          match Program.assemble geometry text with
          | .error error =>
              (.error 1, world.tell [] ["❌ " ++ ("Assembly error: " ++ error.message)])
          | .ok program => (.ok program, world) := by
  rw [readSource, World.perform_next]
  show (world.perform (orFail _ (world.disk.read path) >>= _)) = _
  rw [World.perform_next, perform_orFail]
  cases world.disk.read path with
  | error fault => rfl
  | ok text =>
      dsimp only
      rw [perform_orFail]
      cases Program.assemble geometry text <;> rfl

theorem perform_readImage {image : Image} {text : String} (read : world.disk.read path = .ok text)
    (parsed : Image.parse text = .ok image) :
    world.perform (readImage path) = (.ok image, world) := by
  rw [readImage, World.perform_next]
  show (world.perform (orFail _ (world.disk.read path) >>= _)) = _
  rw [read, World.perform_next, perform_orFail]
  dsimp only
  rw [perform_orFail, parsed]

theorem perform_saveImage (world : World) (geometry : Geometry) (target : String)
    (program : Program) :
    world.perform (saveImage geometry target program) =
      match world.disk.write target (Image.ofProgram program geometry.mainWords).print with
      | .ok disk => (.ok (), World.tell { world with disk } ["✓ Saved to " ++ target] [])
      | .error fault =>
          (.error 1, world.tell []
            ["❌ " ++ ("Failed to save image: " ++ (ImageError.inaccessible fault).message)]) := by
  rw [saveImage, World.perform_next, writeFile, World.perform]
  cases world.disk.write target (Image.ofProgram program geometry.mainWords).print with
  | ok disk =>
      show World.perform _ (orFail _ (.ok ()) >>= _) = _
      rw [World.perform_next, perform_orFail]
      exact World.perform_say _ _ _
  | error fault =>
      show World.perform _ (orFail _ (.error fault) >>= _) = _
      rw [World.perform_next, perform_orFail]

end CommandLine

end BitSerial
