import BitSerial.CommandLine.Disk
import Mathlib.Data.List.Basic

/-!
# Files

A text that was written to a path is what is read from there.  Writing changes nothing
else that can be read: a path that led to some other place still does, and finds there
what it found before.
-/

namespace BitSerial

/-! ## Last names -/

namespace Path

/-- An ending without slashes belongs to the last segment. -/
theorem suffix_iff_suffix_getLast {ending : List Char} (plain : '/' ∉ ending)
    (path : List Char) :
    ending <:+ path ↔ ending <:+ (segments path).getLast (segments_ne_nil path) := by
  induction path with
  | nil => rfl
  | cons char rest ih =>
      by_cases slash : char = '/'
      · have apart : segments (char :: rest) = [] :: segments rest := by
          rw [segments, if_pos slash]
        have notWhole : ending ≠ char :: rest := by
          rintro rfl
          exact plain (slash ▸ List.mem_cons_self)
        simp only [apart, List.getLast_cons (segments_ne_nil rest)]
        rw [List.suffix_cons_iff, or_iff_right notWhole]
        exact ih
      · obtain ⟨first, others, split⟩ := List.exists_cons_of_ne_nil (segments_ne_nil rest)
        have grown : segments (char :: rest) = (char :: first) :: others := by
          rw [segments, if_neg slash, split]
        have joined := join_segments rest
        rw [split] at joined
        cases others with
        | nil =>
            simp only [grown, List.getLast_singleton]
            rw [show rest = first from joined.symm]
        | cons second others =>
            have notWhole : ending ≠ char :: rest := by
              rintro rfl
              apply plain
              rw [← joined, join]
              · exact List.mem_cons_of_mem _ (List.mem_append_right _ List.mem_cons_self)
              · exact List.cons_ne_nil _ _
            simp only [grown, List.getLast_cons (List.cons_ne_nil second others)]
            rw [List.suffix_cons_iff, or_iff_right notWhole, ih]
            simp only [split, List.getLast_cons (List.cons_ne_nil second others)]

end Path

namespace Disk

variable {disk after : Disk} {place other here : Place} {path text : String}

/-- A path is followed from the root or from the working directory. -/
theorem follow_of_target {target : Target} (led : disk.target path = .ok target) :
    disk.follow (if path.toList.head? = some '/' then [] else disk.home)
      ((Path.segments path.toList).map String.ofList) = .ok target := by
  rw [Disk.target] at led
  split at led
  · cases led
  · split at led
    · cases led
    · split at led
      · rename_i absolute
        rwa [if_pos absolute]
      · rename_i relative
        rwa [if_neg relative]

/-- Names that lead to a file end in the file's name. -/
theorem exists_name_of_follow {names : List String}
    (followed : disk.follow here names = .ok ⟨place, false⟩) :
    ∃ front name, names = front ++ [name] ∧ place.getLast? = some name ∧
      name ≠ "" ∧ name ≠ "." ∧ name ≠ ".." := by
  induction names generalizing here with
  | nil => cases followed
  | cons first rest ih =>
      have later (next : Place) (onward : disk.follow next rest = .ok ⟨place, false⟩) :
          ∃ front name, first :: rest = front ++ [name] ∧ place.getLast? = some name ∧
            name ≠ "" ∧ name ≠ "." ∧ name ≠ ".." := by
        obtain ⟨front, name, rfl, proper⟩ := ih onward
        exact ⟨first :: front, name, rfl, proper⟩
      rw [follow] at followed
      split at followed
      · exact later _ followed
      · rename_i named
        split at followed
        · exact later _ followed
        · rename_i down
          split at followed
          · obtain ⟨rfl, asFile⟩ := Target.mk.inj (Except.ok.inj followed)
            have ended : rest = [] := by
              rwa [Bool.not_eq_false', List.isEmpty_iff] at asFile
            obtain ⟨some, dotless⟩ := not_or.mp named
            exact ⟨[], first, by rw [ended]; rfl, List.getLast?_concat, some, dotless, down⟩
          · split at followed
            · exact later _ followed
            all_goals cases followed

theorem getLast?_of_follow {names : List String}
    (followed : disk.follow here names = .ok ⟨place, false⟩) :
    place.getLast? = names.getLast? := by
  obtain ⟨front, name, rfl, last, -⟩ := exists_name_of_follow followed
  rw [last, List.getLast?_concat]

/-- What a path to a file ends in can be seen from the file's name. -/
theorem suffix_iff_of_target {ending : List Char} (plain : '/' ∉ ending)
    (led : disk.target path = .ok ⟨place, false⟩) :
    ending <:+ path.toList ↔ ∀ name ∈ place.getLast?, ending <:+ name.toList := by
  rw [getLast?_of_follow (follow_of_target led), List.getLast?_map,
    List.getLast?_eq_getLast_of_ne_nil (Path.segments_ne_nil _),
    Path.suffix_iff_suffix_getLast plain]
  simp only [Option.map_some, Option.mem_some_iff, forall_eq', String.toList_ofList]

/-! ## What stands where -/

/-- Looking for a name says what stands there unless the name is too long. -/
theorem find_eq_ok_iff {entry : Option Entry} :
    disk.find place = .ok entry ↔
      place.getLast?.any (255 < ·.utf8ByteSize) = false ∧ disk.entry? place = entry := by
  rw [find]
  split
  · rename_i long
    simp [long]
  · rename_i short
    rw [Except.ok.injEq, Bool.eq_false_iff]
    exact (and_iff_right short).symm

/-- A text is read where a path to a file leads. -/
theorem read_eq_ok_iff :
    disk.read path = .ok text ↔
      ∃ place, disk.target path = .ok ⟨place, false⟩ ∧
        disk.find place = .ok (some (.file (.text text))) := by
  rw [read]
  cases disk.target path with
  | error fault => simp [bind, Except.bind]
  | ok target =>
      obtain ⟨place, asDirectory⟩ := target
      simp only [bind, Except.bind]
      rcases looked : disk.find place with fault | _ | _ | content
      · simp [looked]
      · simp [looked]
      · simp [looked]
      · cases asDirectory <;> cases content <;> simp [looked]

/-- A text is put where a path to a file leads, unless a directory stands there. -/
theorem write_eq_ok_iff :
    disk.write path text = .ok after ↔
      ∃ place found, disk.target path = .ok ⟨place, false⟩ ∧ disk.find place = .ok found ∧
        found ≠ some .directory ∧ after = disk.put place text := by
  rw [write]
  cases disk.target path with
  | error fault => simp [bind, Except.bind]
  | ok target =>
      obtain ⟨place, asDirectory⟩ := target
      simp only [bind, Except.bind]
      cases looked : disk.find place with
      | error fault => cases asDirectory <;> simp [looked]
      | ok found =>
          by_cases directory : found = some .directory
          · cases asDirectory <;> simp [looked, directory]
          · cases asDirectory <;> simp [looked, directory, eq_comm]

/-- What can be read can be written over. -/
theorem exists_write_of_read {content : String} (read : disk.read path = .ok content)
    (text : String) : ∃ after, disk.write path text = .ok after := by
  obtain ⟨place, led, found⟩ := read_eq_ok_iff.mp read
  have notDirectory : some (Entry.file (.text content)) ≠ some .directory := by
    rintro ⟨⟩
  exact ⟨_, write_eq_ok_iff.mpr ⟨place, _, led, found, notDirectory, rfl⟩⟩

/-! ## Writing -/

theorem entry?_put_self (disk : Disk) (place : Place) (text : String) :
    Disk.entry? (disk.put place text) place = some (.file (.text text)) := by
  rw [Disk.entry?, put, List.lookup_cons_self]

theorem lookup_put_of_ne (elsewhere : other ≠ place) (text : String) :
    (disk.put place text).files.lookup other = disk.files.lookup other := by
  have others (files : List (Place × FileContent)) :
      (files.filter (·.1 ≠ place)).lookup other = files.lookup other := by
    induction files with
    | nil => rfl
    | cons file rest ih =>
        obtain ⟨name, content⟩ := file
        by_cases same : name = place
        · rw [List.filter_cons_of_neg (by simpa using same), ih, List.lookup_cons, same,
            beq_eq_false_iff_ne.mpr elsewhere]
        · rw [List.filter_cons_of_pos (by simpa using same), List.lookup_cons, List.lookup_cons,
            ih]
  rw [put, List.lookup_cons, beq_eq_false_iff_ne.mpr elsewhere]
  exact others disk.files

/-- What stands elsewhere still stands there after a text was put. -/
theorem entry?_put_of_ne {entry : Entry} (elsewhere : other ≠ place) (text : String)
    (stands : disk.entry? other = some entry) :
    Disk.entry? (disk.put place text) other = some entry := by
  rw [Disk.entry?] at stands
  rw [Disk.entry?, lookup_put_of_ne elsewhere]
  split at stands
  · exact stands
  · split at stands
    · rename_i leads
      cases stands
      apply if_pos
      rw [Bool.or_eq_true, List.any_eq_true] at leads ⊢
      rcases leads with home | ⟨file, listed, leads⟩
      · exact .inl home
      · right
        by_cases same : file.1 = place
        · exact ⟨_, List.mem_cons_self, same ▸ leads⟩
        · exact ⟨file, List.mem_cons_of_mem _ (by simp [listed, same]), leads⟩
    · cases stands

theorem find_put_of_ne {entry : Entry} (elsewhere : other ≠ place) (text : String)
    (found : disk.find other = .ok (some entry)) :
    (disk.put place text).find other = .ok (some entry) := by
  obtain ⟨short, stands⟩ := find_eq_ok_iff.mp found
  exact find_eq_ok_iff.mpr ⟨short, entry?_put_of_ne elsewhere text stands⟩

/-- Where no directory stands, a text can be put without closing any path. -/
theorem follow_put (free : disk.entry? place ≠ some .directory) (text : String)
    {names : List String} {target : Target} (followed : disk.follow here names = .ok target) :
    (disk.put place text).follow here names = .ok target := by
  induction names generalizing here with
  | nil => exact followed
  | cons name rest ih =>
      rw [follow] at followed ⊢
      split at followed
      · rename_i skipped
        rw [if_pos skipped]
        exact ih followed
      · rename_i named
        rw [if_neg named]
        split at followed
        · rename_i up
          rw [if_pos up]
          exact ih followed
        · rename_i down
          rw [if_neg down]
          split at followed
          · rename_i last
            rw [if_pos last]
            exact followed
          · rename_i onward
            rw [if_neg onward]
            split at followed
            · rename_i found
              have elsewhere : here ++ [name] ≠ place := by
                rintro rfl
                exact free (find_eq_ok_iff.mp found).2
              rw [find_put_of_ne elsewhere text found]
              exact ih followed
            all_goals cases followed

theorem target_put (free : disk.entry? place ≠ some .directory) (text : String)
    {target : Target} (followed : disk.target path = .ok target) :
    (disk.put place text).target path = .ok target := by
  rw [Disk.target] at followed ⊢
  split at followed
  · cases followed
  · rename_i nonempty
    rw [if_neg nonempty]
    split at followed
    · cases followed
    · rename_i short
      rw [if_neg short]
      split at followed
      · rename_i absolute
        rw [if_pos absolute]
        exact follow_put free text followed
      · rename_i relative
        rw [if_neg relative]
        exact follow_put free text followed

/-- A text is written where the path leads, however the path is spelled. -/
theorem write_congr {written : String} (meets : disk.target written = disk.target path)
    (text : String) : disk.write written text = disk.write path text := by
  rw [write, write, meets]

/-- What was written to a path is read from every path that led to the same place. -/
theorem read_write_of_target_eq {written : String} (meets : disk.target path = disk.target written)
    (wrote : disk.write written text = .ok after) : after.read path = .ok text := by
  obtain ⟨place, found, led, isFound, notDirectory, rfl⟩ := write_eq_ok_iff.mp wrote
  obtain ⟨short, stood⟩ := find_eq_ok_iff.mp isFound
  refine read_eq_ok_iff.mpr ⟨place, target_put (stood ▸ notDirectory) text (meets.trans led), ?_⟩
  exact find_eq_ok_iff.mpr ⟨short, entry?_put_self disk place text⟩

/-- What was written to a path is read from it. -/
theorem read_write (written : disk.write path text = .ok after) : after.read path = .ok text :=
  read_write_of_target_eq rfl written

/-- What was read before a path that leads elsewhere was written is still read afterwards. -/
theorem read_write_of_target_ne {written content : String}
    (elsewhere : disk.target path ≠ disk.target written) (read : disk.read path = .ok content)
    (wrote : disk.write written text = .ok after) : after.read path = .ok content := by
  obtain ⟨place, found, led, isFound, notDirectory, rfl⟩ := write_eq_ok_iff.mp wrote
  obtain ⟨source, ledSource, isSource⟩ := read_eq_ok_iff.mp read
  have stood := (find_eq_ok_iff.mp isFound).2
  have apart : source ≠ place := by
    rintro rfl
    exact elsewhere (ledSource.trans led.symm)
  refine read_eq_ok_iff.mpr ⟨source, target_put (stood ▸ notDirectory) text ledSource, ?_⟩
  exact find_put_of_ne apart text isSource

/-- What was read before another path was written is still read afterwards, if just one
of the two has an ending without slashes. -/
theorem read_write_of_suffix {ending : List Char} (plain : '/' ∉ ending) {written content : String}
    (ends : ending <:+ path.toList) (endsOther : ¬ending <:+ written.toList)
    (read : disk.read path = .ok content) (wrote : disk.write written text = .ok after) :
    after.read path = .ok content := by
  refine read_write_of_target_ne ?_ read wrote
  intro meets
  obtain ⟨place, -, led, -⟩ := write_eq_ok_iff.mp wrote
  rw [suffix_iff_of_target plain (meets.trans led), ← suffix_iff_of_target plain led] at ends
  exact endsOther ends

end Disk

end BitSerial
