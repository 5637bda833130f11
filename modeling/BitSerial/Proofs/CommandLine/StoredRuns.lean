import BitSerial.Proofs.Assembly.Passes
import BitSerial.Proofs.CommandLine.Files
import BitSerial.Proofs.CommandLine.Runs
import BitSerial.Proofs.Image.Stored

/-!
# Stored runs

A program does the same whether it is run from its source or from the image that was
made of it: the two runs say the same behind the lines that tell where the program came
from, and they end alike.  What a run says against a source, making an image says too.
-/

namespace BitSerial

namespace CommandLine

open Dialogue

variable {geometry : Geometry} {world : World} {path source : String}

/-! ## Sources that are not assembled -/

/-- Whether a dialogue ends with code 1 after just one complaint. -/
def FailsWith (world : World) (dialogue : Dialogue Unit) (complaint : String) : Prop :=
  ∃ after, world.perform dialogue = (.error 1, after) ∧
    after.complaints = world.complaints.push complaint

theorem failsWith_iff {dialogue : Dialogue Unit} {outcome : Except UInt32 Unit}
    {lines complaints : List String}
    (performs : world.perform dialogue = (outcome, world.tell lines complaints))
    {complaint : String} :
    FailsWith world dialogue complaint ↔ outcome = .error 1 ∧ complaints = [complaint] := by
  rw [FailsWith, performs]
  constructor
  · rintro ⟨after, same, complained⟩
    obtain ⟨rfl, rfl⟩ := Prod.mk.inj same
    rw [World.tell, Array.push_eq_append, Array.append_right_inj] at complained
    exact ⟨rfl, congrArg Array.toList complained⟩
  · rintro ⟨rfl, rfl⟩
    exact ⟨_, rfl, by rw [World.tell, Array.push_eq_append]⟩

/-- A dialogue that does not blame a source does not fail with that. -/
theorem not_failsWith_of_tells {dialogue : Dialogue Unit}
    (tells : Tells (¬BlamesSource ·) dialogue) (message : String) :
    ¬FailsWith world dialogue ("❌ Assembly error: " ++ message) := by
  obtain ⟨outcome, lines, complaints, others, performs⟩ := tells.perform
  rw [failsWith_iff (performs world)]
  rintro ⟨-, rfl⟩
  exact others _ (List.mem_singleton_self _) (blamesSource_message message)

theorem failsWith_printLine_iff {line complaint : String} {next : Unit → Dialogue Unit} :
    FailsWith world (printLine line >>= next) complaint ↔
      FailsWith (world.tell [line] []) (next ()) complaint := by
  rw [FailsWith, FailsWith, perform_printLine, World.tell, Array.append_empty]

/-- Whether there is a source that is not assembled for a reason with some text. -/
def Refuses (world : World) (geometry : Geometry) (source message : String) : Prop :=
  ∃ text error, world.disk.read source = .ok text ∧
    Program.assemble geometry text = .error error ∧ error.message = message

/-- Reading a source is what fails if it is not assembled. -/
theorem failsWith_readSource_iff {message : String} {next : Program → Dialogue Unit}
    (others : ∀ program, ¬FailsWith world (next program) ("❌ Assembly error: " ++ message)) :
    FailsWith world (readSource geometry source >>= next) ("❌ Assembly error: " ++ message) ↔
      Refuses world geometry source message := by
  have goes := world.perform_next (readSource geometry source) next
  rw [perform_readSource] at goes
  cases read : world.disk.read source with
  | error fault =>
      rw [read] at goes
      rw [failsWith_iff goes]
      constructor
      · rintro ⟨-, complained⟩
        have blames := blamesSource_message message
        rw [← List.singleton_inj.mp complained] at blames
        exact absurd blames (not_blamesSource (by simp))
      · rintro ⟨text, error, isText, -⟩
        cases read.symm.trans isText
  | ok text =>
      cases assembled : Program.assemble geometry text with
      | error error =>
          simp only [read, assembled] at goes
          rw [failsWith_iff goes, and_iff_right rfl, List.singleton_inj, ← String.append_assoc,
            show "❌ " ++ "Assembly error: " = "❌ Assembly error: " from rfl,
            String.append_right_inj]
          constructor
          · rintro rfl
            exact ⟨text, error, read, assembled, rfl⟩
          · rintro ⟨other, _, isOther, failed, rfl⟩
            cases read.symm.trans isOther
            cases assembled.symm.trans failed
            rfl
      | ok program =>
          simp only [read, assembled] at goes
          constructor
          · rintro ⟨after, performs, complained⟩
            exact absurd ⟨after, goes.symm.trans performs, complained⟩ (others program)
          · rintro ⟨other, error, isOther, failed, -⟩
            cases read.symm.trans isOther
            cases assembled.symm.trans failed

/-- A run of a source fails with the reason for which the source is not assembled. -/
theorem failsWith_runProgram_iff (valid : geometry.Valid) (isSource : isSource source = true)
    (trace : Bool) (maxCycles : Nat) {message : String} :
    FailsWith world (runProgram geometry trace source maxCycles) ("❌ Assembly error: " ++ message) ↔
      Refuses world geometry source message := by
  rw [runProgram_eq_of_isSource isSource, failsWith_printLine_iff, failsWith_readSource_iff]
  · rfl
  · intro program
    rw [failsWith_printLine_iff]
    exact not_failsWith_of_tells (tells_runRead valid trace program maxCycles) message

theorem not_failsWith_saveImage (target : String) (program : Program) (message : String) :
    ¬FailsWith world (saveImage geometry target program) ("❌ Assembly error: " ++ message) := by
  have performs := perform_saveImage world geometry target program
  cases wrote : world.disk.write target (Image.ofProgram program geometry.mainWords).print with
  | ok disk =>
      rw [wrote] at performs
      rintro ⟨after, failed, -⟩
      cases performs.symm.trans failed
  | error fault =>
      rw [wrote] at performs
      rw [failsWith_iff performs]
      rintro ⟨-, complained⟩
      have blames := blamesSource_message message
      rw [← List.singleton_inj.mp complained] at blames
      exact absurd blames (not_blamesSource (by simp))

/-- An image is not made for the reason for which its source is not assembled. -/
theorem failsWith_assembleFile_iff {output : Option String} {target : String}
    (isTarget : output.getD (imagePath source) = target) (apart : samePath target source = false)
    {message : String} :
    FailsWith world (assembleFile geometry source output) ("❌ Assembly error: " ++ message) ↔
      Refuses world geometry source message := by
  rw [assembleFile_eq isTarget, apart, if_neg Bool.false_ne_true, failsWith_printLine_iff,
    failsWith_readSource_iff]
  · rfl
  · intro program
    rw [failsWith_printLine_iff]
    exact not_failsWith_saveImage target program message

/-! ## Programs that are stored -/

/-- What there is once an image was made: the program of the source, and the disk with
its image on it. -/
structure Stored (world : World) (geometry : Geometry) (source target : String)
    (program : Program) (after : World) : Prop where
  assembled : ∃ text, world.disk.read source = .ok text ∧
    Program.assemble geometry text = .ok program
  written : world.disk.write target (Image.ofProgram program geometry.mainWords).print =
    .ok after.disk

theorem exists_stored {output : Option String} {target : String} {after : World}
    (isTarget : output.getD (imagePath source) = target)
    (made : world.perform (assembleFile geometry source output) = (.ok (), after)) :
    ∃ program, Stored world geometry source target program after := by
  rw [assembleFile_eq isTarget] at made
  split at made
  · rw [fail, World.perform_complain] at made
    cases made
  · rw [perform_printLine, World.perform_next, perform_readSource] at made
    rcases read : (world.tell ["📝 Assembling: " ++ source ++ " → " ++ target] []).disk.read
      source with fault | text
    · rw [read] at made
      cases made
    · rw [read] at made
      dsimp only at made
      rcases assembled : Program.assemble geometry text with error | program
      · rw [assembled] at made
        cases made
      · rw [assembled] at made
        dsimp only at made
        rw [perform_printLine, World.tell_tell, perform_saveImage] at made
        split at made
        · rename_i disk wrote
          cases made
          exact ⟨program, ⟨text, read, assembled⟩, wrote⟩
        · cases made

/-- The image of an assembled program is read as what it is. -/
theorem parse_ofProgram (counted : geometry.mainWords < countLimit) {text : String}
    {program : Program} (assembled : Program.assemble geometry text = .ok program) :
    Image.parse (Image.ofProgram program geometry.mainWords).print =
      .ok (Image.ofProgram program geometry.mainWords) := by
  have isOf := Program.of_assemble assembled
  have whole := isOf.base_add_size
  have programCounted : program.Counted := by
    constructor
    · omega
    · intro entry member
      have inside := isOf.label_lt entry member
      omega
  rw [Image.Counted.parse_print ⟨counted, programCounted⟩, Image.check_eq_ok_iff]
  refine ⟨rfl, ?_, ?_⟩
  · show program.size ≤ geometry.mainWords
    omega
  · show program.base = geometry.mainWords - program.size
    omega

theorem perform_runProgram_source (isSource : isSource source = true) {text : String}
    {program : Program} (read : world.disk.read source = .ok text)
    (assembled : Program.assemble geometry text = .ok program) (trace : Bool) (maxCycles : Nat) :
    world.perform (runProgram geometry trace source maxCycles) =
      (world.tell ["🔧 Running: " ++ source,
        s!"📝 Assembled {program.size} words at base {program.base}"] []).perform
          (runRead geometry trace program maxCycles) := by
  have took : (world.tell ["🔧 Running: " ++ source] []).disk.read source = .ok text := read
  rw [runProgram_eq_of_isSource isSource, perform_printLine, World.perform_next,
    perform_readSource, took]
  dsimp only
  rw [assembled]
  dsimp only
  rw [perform_printLine, World.tell_tell]
  rfl

theorem perform_runProgram_image (isImage : isSource path = false) {text : String}
    {image : Image} (read : world.disk.read path = .ok text)
    (parsed : Image.parse text = .ok image) (trace : Bool) (maxCycles : Nat) :
    world.perform (runProgram geometry trace path maxCycles) =
      (world.tell ["🔧 Running: " ++ path, s!"📂 Loaded {image.program.size} words"] []).perform
        (runRead { geometry with mainWords := image.mainWords } trace image.program
          maxCycles) := by
  have took : (world.tell ["🔧 Running: " ++ path] []).disk.read path = .ok text := read
  rw [runProgram_eq_of_not_isSource isImage, perform_printLine, World.perform_next,
    perform_readImage took parsed]
  dsimp only
  rw [perform_printLine, World.tell_tell]
  rfl

/-- An image that was made of a source runs as the source does, before and after: with
the same result or exit code and, behind the two lines that say what is run, with the same
lines and complaints.  Whatever is wrong with a source, making an image fails for it if
and only if a run does; but an image is not made in its source's place. -/
theorem stored_run_agrees (valid : geometry.Valid) (counted : geometry.mainWords < countLimit)
    {source target : String} {output : Option String}
    (isTarget : output.getD (imagePath source) = target) (isImage : isSource target = false)
    (isSource : isSource source = true) (world : World) (trace : Bool) (maxCycles : Nat) :
    (∀ after, world.perform ((Command.assemble source output).perform geometry trace) =
        (.ok (), after) →
      ∃ text program outcome lines complaints,
        world.disk.read source = .ok text ∧ Program.assemble geometry text = .ok program ∧
        (∀ start ∈ [world, after],
          start.perform ((Command.run source maxCycles).perform geometry trace) =
            (outcome, start.tell (["🔧 Running: " ++ source,
              s!"📝 Assembled {program.size} words at base {program.base}"] ++ lines)
                complaints)) ∧
        after.perform ((Command.run target maxCycles).perform geometry trace) =
          (outcome, after.tell (["🔧 Running: " ++ target,
            s!"📂 Loaded {program.size} words"] ++ lines) complaints)) ∧
    (samePath target source = false → ∀ error : AssemblyError,
      (FailsWith world ((Command.assemble source output).perform geometry trace)
          ("❌ Assembly error: " ++ error.message) ↔
        FailsWith world ((Command.run source maxCycles).perform geometry trace)
          ("❌ Assembly error: " ++ error.message))) := by
  constructor
  · intro after made
    obtain ⟨program, ⟨text, read, assembled⟩, wrote⟩ := exists_stored isTarget made
    obtain ⟨outcome, lines, complaints, -, performs⟩ :=
      (tells_runRead valid trace program maxCycles).perform
    refine ⟨text, program, outcome, lines, complaints, read, assembled, ?_, ?_⟩
    · intro start which
      have readStart : start.disk.read source = .ok text := by
        rcases List.mem_pair.mp which with rfl | rfl
        · exact read
        · exact Disk.read_write_of_suffix (by decide) (List.isSuffixOf_iff_suffix.mp isSource)
            (mt List.isSuffixOf_iff_suffix.mpr (Bool.eq_false_iff.mp isImage)) read wrote
      have runs := perform_runProgram_source isSource readStart assembled trace maxCycles
      rw [performs, World.tell_tell] at runs
      exact runs
    · have readTarget := Disk.read_write wrote
      have parsed := parse_ofProgram counted assembled
      -- The image brings along the size of main memory, which is the one chosen here too.
      have runs : after.perform (runProgram geometry trace target maxCycles) =
          (after.tell ["🔧 Running: " ++ target, s!"📂 Loaded {program.size} words"] []).perform
            (runRead geometry trace program maxCycles) :=
        perform_runProgram_image isImage readTarget parsed trace maxCycles
      rw [performs, World.tell_tell] at runs
      exact runs
  · intro apart error
    exact (failsWith_assembleFile_iff isTarget apart).trans
      (failsWith_runProgram_iff valid isSource trace maxCycles).symm

/-- Two sources, one of which is assembled. -/
def twoSources : World :=
  .ofDisk ⟨["home"], [(["home", "good.asm"], .text "LAI 7\nPRA\nHLT"),
    (["home", "bad.asm"], .text "BAD")]⟩

theorem run_bad_fails :
    FailsWith twoSources ((Command.run "bad.asm" 5).perform {} false)
      "❌ Assembly error: unknown mnemonic on line 1: BAD" := by
  have refuses : Refuses twoSources {} "bad.asm" "unknown mnemonic on line 1: BAD" :=
    ⟨"BAD", .unknownMnemonic 1 "BAD", by decide +kernel, by decide +kernel, by decide +kernel⟩
  exact (failsWith_runProgram_iff Geometry.valid_standard rfl false 5).mpr refuses

/-- The image of a good source stands beside it and runs as it does.  A bad one is refused
by name, whether it is to be stored or to be run. -/
theorem stored_run_agrees_two_sources :
    (∃ after outcome lines complaints,
      twoSources.perform ((Command.assemble "good.asm" none).perform {} false) =
        (.ok (), after) ∧
      after.perform ((Command.run "good.asm" 5).perform {} false) =
        (outcome, after.tell (["🔧 Running: good.asm",
          "📝 Assembled 3 words at base 61"] ++ lines) complaints) ∧
      after.perform ((Command.run "good.json" 5).perform {} false) =
        (outcome, after.tell (["🔧 Running: good.json", "📂 Loaded 3 words"] ++ lines)
          complaints)) ∧
    FailsWith twoSources ((Command.assemble "bad.asm" (some "image")).perform {} false)
      "❌ Assembly error: unknown mnemonic on line 1: BAD" ∧
    FailsWith twoSources ((Command.run "bad.asm" 5).perform {} false)
      "❌ Assembly error: unknown mnemonic on line 1: BAD" := by
  have goodTarget : (none : Option String).getD (imagePath "good.asm") = "good.json" := by
    decide +kernel
  have badTarget : (some "image").getD (imagePath "bad.asm") = "image" := rfl
  obtain ⟨stored, -⟩ := stored_run_agrees Geometry.valid_standard (by decide)
    goodTarget rfl rfl twoSources false 5
  obtain ⟨-, refused⟩ := stored_run_agrees Geometry.valid_standard (by decide)
    badTarget rfl rfl twoSources false 5
  constructor
  · have isText : twoSources.disk.read "good.asm" = .ok "LAI 7\nPRA\nHLT" := by decide +kernel
    have isProgram : Program.assemble {} "LAI 7\nPRA\nHLT" =
        .ok ⟨61, [0x0100000007#40, 0x3000000000#40, 0xFF00000000#40], .empty⟩ := by
      decide +kernel
    have made : (twoSources.perform ((Command.assemble "good.asm" none).perform {} false)).1 =
        .ok () := by
      decide +kernel
    obtain ⟨text, program, outcome, lines, complaints, read, assembled, source, image⟩ :=
      stored _ (Prod.ext made rfl)
    cases isText.symm.trans read
    cases isProgram.symm.trans assembled
    exact ⟨_, outcome, lines, complaints, Prod.ext made rfl,
      source _ (List.mem_cons_of_mem _ (List.mem_singleton_self _)), image⟩
  · have apart : samePath "image" "bad.asm" = false := by decide +kernel
    have fails := run_bad_fails
    exact ⟨(refused apart (.unknownMnemonic 1 "BAD")).mpr fails, fails⟩

/-- A slash behind the name of a source makes a path that is not taken for a source, and
an image for there is refused before its source is read. -/
theorem image_over_source_refused :
    isSource "bad.asm" = true ∧ isSource "bad.asm/" = false ∧
    FailsWith twoSources ((Command.run "bad.asm" 5).perform {} false)
      "❌ Assembly error: unknown mnemonic on line 1: BAD" ∧
    ∀ error : AssemblyError,
      ¬FailsWith twoSources ((Command.assemble "bad.asm" (some "bad.asm/")).perform {} false)
        ("❌ Assembly error: " ++ error.message) := by
  refine ⟨rfl, rfl, run_bad_fails, ?_⟩
  intro error
  have same : samePath "bad.asm/" "bad.asm" = true := by decide +kernel
  have isTarget : (some "bad.asm/").getD (imagePath "bad.asm") = "bad.asm/" := rfl
  rw [Command.perform, assembleFile_eq isTarget, if_pos same]
  exact not_failsWith_of_tells (tells_fail (by simp)) error.message

end CommandLine

end BitSerial
