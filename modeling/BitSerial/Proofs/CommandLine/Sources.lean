import BitSerial.Proofs.CommandLine.Paths
import BitSerial.Proofs.CommandLine.StoredRuns

/-!
# Sources and their images

Making an image writes one file, if any, and that only once the source is assembled.  The
source is lost if and only if the image is written in its place, which is refused if both
paths are the same as spelled.  Two spellings of one place need not be: a `.` in front of
one of them is enough.
-/

namespace BitSerial

/-! ## Images are no sources -/

theorem Image.exists_print (image : Image) :
    ∃ rest, image.print.toList = '{' :: '\n' :: rest := by
  rw [print, Json.indented, String.toList_ofList]
  exact ⟨_, rfl⟩

/-- The text of an image is not assembled, as its first line asks for nothing that there is. -/
theorem Program.assemble_print_ne (geometry : Geometry) (image : Image) (program : Program) :
    assemble geometry image.print ≠ .ok program := by
  intro assembled
  obtain ⟨rest, begins⟩ := image.exists_print
  have isLine : Text.IsLine ['{'] := ⟨by decide, by decide⟩
  have lines : Text.lines image.print.toList = ['{'] :: Text.lines rest := by
    rw [begins]
    exact isLine.lines_append rest
  have first : (SourceLine.parse ['{']).statement = some (['{'], []) := by decide +kernel
  have encoded := (of_assemble assembled).encoded
  rw [lines, SourceLine.statements, List.filterMap_cons, first] at encoded
  obtain ⟨_, _, ⟨statement, written, -⟩, -⟩ := List.forall₂_cons_left_iff.mp encoded
  have mnemonic : statement.directive.mnemonic.toList = ['{'] := congrArg Prod.fst written
  have asked := Directive.ofMnemonic_mnemonic statement.directive
  rw [mnemonic] at asked
  have unknown : Directive.ofMnemonic? ['{'] = none := by decide +kernel
  cases unknown.symm.trans asked

namespace CommandLine

open Dialogue

variable {geometry : Geometry} {world : World} {disk : Disk} {source target : String}
  {output : Option String}

/-! ## How the making of an image ends -/

/-- Whether there is a source that is assembled. -/
def Assembles (disk : Disk) (geometry : Geometry) (source : String) : Prop :=
  ∃ text program, disk.read source = .ok text ∧ Program.assemble geometry text = .ok program

/-- Making an image either fails and leaves all files as they were, because the path is
refused, the source is not assembled or the image cannot be written, or it stores the image. -/
theorem assembleFile_ends (isTarget : output.getD (imagePath source) = target) (world : World)
    (geometry : Geometry) :
    ∃ outcome after, world.perform (assembleFile geometry source output) = (outcome, after) ∧
      (outcome = .error 1 ∧ after.disk = world.disk ∧
          (samePath target source = true ∨ ¬Assembles world.disk geometry source ∨
            ∃ program : Program, ∃ fault, world.disk.write target
              (Image.ofProgram program geometry.mainWords).print = .error fault) ∨
        outcome = .ok () ∧ samePath target source = false ∧
          ∃ program, Stored world geometry source target program after) := by
  rw [assembleFile_eq isTarget]
  -- The paths are compared first, then the source is read and assembled; only then is written.
  cases apart : samePath target source with
  | true =>
      rw [if_pos rfl, fail, World.perform_complain]
      exact ⟨_, _, rfl, .inl ⟨rfl, rfl, .inl rfl⟩⟩
  | false =>
      rw [if_neg Bool.false_ne_true, perform_printLine, World.perform_next, perform_readSource]
      cases read : (world.tell ["📝 Assembling: " ++ source ++ " → " ++ target] []).disk.read
        source with
      | error fault =>
          refine ⟨_, _, rfl, .inl ⟨rfl, rfl, .inr (.inl ?_)⟩⟩
          rintro ⟨text, program, isText, -⟩
          cases read.symm.trans isText
      | ok text =>
          dsimp only
          cases assembled : Program.assemble geometry text with
          | error error =>
              refine ⟨_, _, rfl, .inl ⟨rfl, rfl, .inr (.inl ?_)⟩⟩
              rintro ⟨other, program, isText, isProgram⟩
              cases read.symm.trans isText
              cases assembled.symm.trans isProgram
          | ok program =>
              dsimp only
              rw [perform_printLine, World.tell_tell, perform_saveImage]
              split
              · rename_i after wrote
                exact ⟨_, _, rfl, .inr ⟨rfl, rfl, program, ⟨text, read, assembled⟩, wrote⟩⟩
              · rename_i fault refused
                exact ⟨_, _, rfl, .inl ⟨rfl, rfl, .inr (.inr ⟨program, fault, refused⟩)⟩⟩

/-! ## Images in the place of their sources -/

/-- Whether an image is written in the place of its source: the source is assembled, and the
two paths lead to one place though they are not the same as spelled. -/
structure Overwrites (disk : Disk) (geometry : Geometry) (source target : String) : Prop where
  assembles : Assembles disk geometry source
  apart : samePath target source = false
  meets : disk.target target = disk.target source

/-- A source that can be read is lost if and only if its image is written in its place. -/
theorem read_source_iff (isTarget : output.getD (imagePath source) = target)
    {outcome : Except UInt32 Unit} {after : World} {text : String}
    (performs : world.perform (assembleFile geometry source output) = (outcome, after))
    (read : world.disk.read source = .ok text) :
    after.disk.read source = .ok text ↔ ¬Overwrites world.disk geometry source target := by
  obtain ⟨_, _, performed, ends⟩ := assembleFile_ends isTarget world geometry
  obtain ⟨rfl, rfl⟩ := Prod.mk.inj (performs.symm.trans performed)
  rcases ends with ⟨-, kept, why⟩ | ⟨-, apart, program, stored⟩
  · rw [kept, iff_true_left read]
    rintro ⟨assembles, apart, meets⟩
    rcases why with same | unassembled | ⟨program, fault, refused⟩
    · cases apart.symm.trans same
    · exact unassembled assembles
    · rw [Disk.write_congr meets] at refused
      obtain ⟨_, wrote⟩ := Disk.exists_write_of_read read
        (Image.ofProgram program geometry.mainWords).print
      cases refused.symm.trans wrote
  · obtain ⟨source', isSource, assembled⟩ := stored.assembled
    cases read.symm.trans isSource
    constructor
    · -- An image in the source's place is what is read there, and that is no source.
      rintro kept ⟨-, -, meets⟩
      have lost := Disk.read_write_of_target_eq meets.symm stored.written
      rw [lost] at kept
      rw [← Except.ok.inj kept] at assembled
      exact Program.assemble_print_ne geometry _ program assembled
    · intro elsewhere
      refine Disk.read_write_of_target_ne (fun meets => ?_) read stored.written
      exact elsewhere ⟨⟨text, program, read, assembled⟩, apart, meets.symm⟩

/-! ## Spellings -/

theorem samePath_eq_false_iff :
    samePath target source = false ↔
      Path.components target.toList ≠ Path.components source.toList := by
  rw [samePath, decide_eq_false_iff_not]

theorem Assembles.exists_target (assembles : Assembles disk geometry source) :
    ∃ place, disk.target source = .ok ⟨place, false⟩ := by
  obtain ⟨text, program, read, -⟩ := assembles
  obtain ⟨place, led, -⟩ := Disk.read_eq_ok_iff.mp read
  exact ⟨place, led⟩

/-- An image that was given no path of its own is not written in its source's place. -/
theorem not_overwrites_imagePath : ¬Overwrites disk geometry source (imagePath source) := by
  rintro ⟨assembles, apart, meets⟩
  obtain ⟨place, led⟩ := assembles.exists_target
  obtain ⟨front, name, ends, last, leads, down⟩ := Disk.exists_name_of_target led
  obtain ⟨frontImage, nameImage, endsImage, lastImage, -⟩ :=
    Disk.exists_name_of_target (meets.trans led)
  obtain rfl : name = nameImage :=
    String.ofList_inj.mp (Option.some.inj (last.symm.trans lastImage))
  have plain : '/' ∉ "json".toList := by decide
  have extended := Path.segments_withExtension ends leads down plain
  -- both paths end in the name of the file, so the extension was the source's own
  have same : Path.segments (imagePath source).toList = Path.segments source.toList := by
    rw [imagePath, String.toList_ofList] at endsImage ⊢
    rw [extended] at endsImage ⊢
    rw [List.append_singleton_inj.mp endsImage |>.2, ends]
  have spelled : (imagePath source).toList = source.toList := by
    rw [← Path.join_segments (imagePath source).toList, same, Path.join_segments]
  exact samePath_eq_false_iff.mp apart (congrArg Path.components spelled)

/-- Relative paths with the same steps lead to one place, if they lead to files. -/
theorem target_eq_of_steps (relative : Path.isAbsolute source.toList = false)
    (relativeTarget : Path.isAbsolute target.toList = false)
    (same : Path.steps target.toList = Path.steps source.toList) {place placeTarget : Place}
    (led : disk.target source = .ok ⟨place, false⟩)
    (ledTarget : disk.target target = .ok ⟨placeTarget, false⟩) :
    disk.target target = disk.target source := by
  have arrives := Disk.place_of_target led
  have arrivesTarget := Disk.place_of_target ledTarget
  rw [relative] at arrives
  rw [relativeTarget, Disk.stepNames, same] at arrivesTarget
  have meets : placeTarget = place := arrivesTarget.trans arrives.symm
  rw [led, ledTarget, meets]

/-- A path with the same steps leads over the source if it leads to a file at all, and just one
of the two begins with a dot. -/
theorem overwrites_iff_of_steps (relative : Path.isAbsolute source.toList = false)
    (relativeTarget : Path.isAbsolute target.toList = false)
    (same : Path.steps target.toList = Path.steps source.toList) :
    Overwrites disk geometry source target ↔
      Assembles disk geometry source ∧ (∃ place, disk.target target = .ok ⟨place, false⟩) ∧
        Path.beginsHere target.toList ≠ Path.beginsHere source.toList := by
  have spelled := Path.components_eq_iff_of_steps relativeTarget relative same
  constructor
  · rintro ⟨assembles, apart, meets⟩
    refine ⟨assembles, ?_, mt spelled.mpr (samePath_eq_false_iff.mp apart)⟩
    obtain ⟨place, led⟩ := assembles.exists_target
    exact ⟨place, meets.trans led⟩
  · rintro ⟨assembles, ⟨placeTarget, ledTarget⟩, begins⟩
    obtain ⟨place, led⟩ := assembles.exists_target
    exact ⟨assembles, samePath_eq_false_iff.mpr (mt spelled.mp begins),
      target_eq_of_steps relative relativeTarget same led ledTarget⟩

/-- Without steps upward, relative paths lead to one file only if their steps are the same. -/
theorem Overwrites.steps_eq (overwrites : Overwrites disk geometry source target)
    (relative : Path.isAbsolute source.toList = false)
    (relativeTarget : Path.isAbsolute target.toList = false)
    (down : ['.', '.'] ∉ Path.steps source.toList)
    (downTarget : ['.', '.'] ∉ Path.steps target.toList) :
    Path.steps target.toList = Path.steps source.toList := by
  obtain ⟨place, led⟩ := overwrites.assembles.exists_target
  have arrives := Disk.place_of_target led
  have arrivesTarget := Disk.place_of_target (overwrites.meets.trans led)
  rw [relative, Disk.walk_of_not_mem (Disk.not_mem_stepNames down)] at arrives
  rw [relativeTarget, Disk.walk_of_not_mem (Disk.not_mem_stepNames downTarget)] at arrivesTarget
  exact Disk.steps_eq_of_stepNames
    (List.append_cancel_left (arrivesTarget.symm.trans arrives))

/-- Making an image ends with code 1 and all files as they were, or with the image of the
source where the target leads; a source that is not assembled makes it fail.  A source that can
be read is there afterwards if and only if its image is not written in its place.  An image
that was given no path of its own never is.  Of relative paths, those with the same steps lead
to one place if they lead to files, and what is refused is what begins alike; others lead to one
place only through a step upward. -/
theorem source_kept_exact (isTarget : output.getD (imagePath source) = target)
    (world : World) (geometry : Geometry) (trace : Bool) :
    (∃ outcome after,
      world.perform ((Command.assemble source output).perform geometry trace) =
        (outcome, after) ∧
      (outcome = .error 1 ∧ after.disk = world.disk ∨
        outcome = .ok () ∧ ∃ program, Stored world geometry source target program after) ∧
      (¬Assembles world.disk geometry source →
        outcome = .error 1 ∧ after.disk = world.disk) ∧
      ∀ text, world.disk.read source = .ok text →
        (after.disk.read source = .ok text ↔
          ¬Overwrites world.disk geometry source target)) ∧
    (output = none → ¬Overwrites world.disk geometry source target) ∧
    (Path.isAbsolute source.toList = false → Path.isAbsolute target.toList = false →
      (Path.steps target.toList = Path.steps source.toList →
        (Overwrites world.disk geometry source target ↔
          Assembles world.disk geometry source ∧
          (∃ place, world.disk.target target = .ok ⟨place, false⟩) ∧
          Path.beginsHere target.toList ≠ Path.beginsHere source.toList)) ∧
      (['.', '.'] ∉ Path.steps source.toList → ['.', '.'] ∉ Path.steps target.toList →
        Path.steps target.toList ≠ Path.steps source.toList →
        ¬Overwrites world.disk geometry source target)) := by
  refine ⟨?_, ?_, ?_⟩
  · obtain ⟨outcome, after, performs, ends⟩ := assembleFile_ends isTarget world geometry
    refine ⟨outcome, after, performs, ?_, ?_, fun text => read_source_iff isTarget performs⟩
    · rcases ends with ⟨failed, kept, -⟩ | ⟨made, -, stored⟩
      · exact .inl ⟨failed, kept⟩
      · exact .inr ⟨made, stored⟩
    · intro unassembled
      rcases ends with ⟨failed, kept, -⟩ | ⟨-, -, program, stored⟩
      · exact ⟨failed, kept⟩
      · obtain ⟨text, read, assembled⟩ := stored.assembled
        exact absurd ⟨text, program, read, assembled⟩ unassembled
  · rintro rfl
    rw [← isTarget]
    exact not_overwrites_imagePath
  · intro relative relativeTarget
    refine ⟨overwrites_iff_of_steps relative relativeTarget, ?_⟩
    intro down downTarget apart overwrites
    exact apart (overwrites.steps_eq relative relativeTarget down downTarget)

/-- A source in the working directory. -/
def oneSource : World :=
  .ofDisk ⟨["home"], [(["home", "p.asm"], .text "HLT")]⟩

/-- The source is kept beside its image, and where the image is kept out by the spelling of its
path. -/
theorem source_kept_exact_beside :
    (∃ outcome after,
      oneSource.perform ((Command.assemble "p.asm" none).perform {} false) = (outcome, after) ∧
      after.disk.read "p.asm" = .ok "HLT") ∧
    (∃ outcome after,
      oneSource.perform ((Command.assemble "./p.asm" (some ".//./p.asm")).perform {} false) =
        (outcome, after) ∧
      after.disk.read "./p.asm" = .ok "HLT") := by
  constructor
  · have isTarget : (none : Option String).getD (imagePath "p.asm") = "p.json" := by
      decide +kernel
    have isText : oneSource.disk.read "p.asm" = .ok "HLT" := by decide +kernel
    obtain ⟨⟨outcome, after, performs, -, -, kept⟩, byDefault, -⟩ :=
      source_kept_exact isTarget oneSource {} false
    exact ⟨outcome, after, performs, (kept "HLT" isText).mpr (byDefault rfl)⟩
  · have isTarget : (some ".//./p.asm").getD (imagePath "./p.asm") = ".//./p.asm" := rfl
    have isText : oneSource.disk.read "./p.asm" = .ok "HLT" := by decide +kernel
    obtain ⟨⟨outcome, after, performs, -, -, kept⟩, -, relative⟩ :=
      source_kept_exact isTarget oneSource {} false
    refine ⟨outcome, after, performs, (kept "HLT" isText).mpr ?_⟩
    have same : Path.steps ".//./p.asm".toList = Path.steps "./p.asm".toList := by decide +kernel
    have alike : Path.beginsHere ".//./p.asm".toList = Path.beginsHere "./p.asm".toList := by
      decide +kernel
    obtain ⟨sameSteps, -⟩ := relative (by decide +kernel) (by decide +kernel)
    intro overwrites
    obtain ⟨-, -, begins⟩ := (sameSteps same).mp overwrites
    exact begins alike

/-- A dot in front of the path is enough for the image to be written in the source's place. -/
theorem source_lost_behind_dot :
    Path.steps "./p.asm".toList = Path.steps "p.asm".toList ∧
    oneSource.disk.read "p.asm" = .ok "HLT" ∧
    ∃ after,
      oneSource.perform ((Command.assemble "p.asm" (some "./p.asm")).perform {} false) =
        (.ok (), after) ∧
      after.disk.read "p.asm" ≠ .ok "HLT" := by
  have made : (oneSource.perform
      ((Command.assemble "p.asm" (some "./p.asm")).perform {} false)).1 = .ok () := by
    decide +kernel
  have lost : (oneSource.perform
      ((Command.assemble "p.asm" (some "./p.asm")).perform {} false)).2.disk.read "p.asm" ≠
        .ok "HLT" := by
    decide +kernel
  exact ⟨by decide +kernel, by decide +kernel, _, Prod.ext made rfl, lost⟩

end CommandLine

end BitSerial
