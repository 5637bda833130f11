import BitSerial.Proofs.CommandLine.Files
import Mathlib.Data.List.Basic

/-!
# Where paths lead

A path is known by how it begins and by its steps, the segments that lead anywhere.  As
spelled two paths are the same if they begin alike and have the same steps.  Where a path
leads does not depend on all of that: a path that begins with a `.` leads where it leads
without it, so two paths may lead to one place and not be the same as spelled.
-/

namespace BitSerial

namespace Path

/-- A segment that leads somewhere. -/
def Leads (segment : List Char) : Prop :=
  segment ≠ [] ∧ segment ≠ ['.']

instance (segment : List Char) : Decidable (Leads segment) :=
  inferInstanceAs (Decidable (_ ∧ _))

/-- The segments of a path that lead anywhere. -/
def steps (path : List Char) : List (List Char) :=
  (segments path).filter fun segment => Leads segment

/-- A path that starts at the root. -/
def isAbsolute (path : List Char) : Bool :=
  path.head? = some '/'

/-- A path that begins with a `.` of its own. -/
def beginsHere (path : List Char) : Bool :=
  (segments path).head? = some ['.']

/-- The component that a path begins with before any step. -/
def lead (path : List Char) : Option Component :=
  if isAbsolute path then some .root
  else if beginsHere path then some .here
  else none

/-- The component of a step. -/
def stepOf (segment : List Char) : Component :=
  if segment = ['.', '.'] then .up else .named segment

/-! ## Components -/

theorem component?_of_leads {segment : List Char} (leads : Leads segment) :
    component? segment = some (stepOf segment) := by
  rw [component?, if_neg (not_or.mpr leads), stepOf]
  split <;> rfl

theorem component?_of_not_leads {segment : List Char} (still : ¬Leads segment) :
    component? segment = none := by
  rw [Leads, not_and_or, not_not, not_not] at still
  rw [component?, if_pos still]

theorem stepOf_injective : Function.Injective stepOf := by
  intro left right same
  rw [stepOf, stepOf] at same
  split at same <;> split at same
  · simp_all
  · cases same
  · cases same
  · exact Component.named.inj same

theorem filterMap_component? (parts : List (List Char)) :
    parts.filterMap component? = (parts.filter fun segment => Leads segment).map stepOf := by
  induction parts with
  | nil => rfl
  | cons segment rest ih =>
      by_cases leads : Leads segment
      · rw [List.filterMap_cons_some (component?_of_leads leads),
          List.filter_cons_of_pos (by simpa using leads), List.map_cons, ih]
      · rw [List.filterMap_cons_none (component?_of_not_leads leads),
          List.filter_cons_of_neg (by simpa using leads), ih]

/-- The components of a path are what it begins with and its steps. -/
theorem components_eq (path : List Char) :
    components path = (lead path).toList ++ (steps path).map stepOf := by
  rw [components, steps, ← filterMap_component?]
  cases path with
  | nil => rfl
  | cons char rest =>
      rw [lead, isAbsolute, beginsHere]
      by_cases slash : char = '/'
      · subst slash
        have nonempty := segments_ne_nil rest
        rw [segments, if_pos rfl]
        simp [leading, nonempty, component?]
      · obtain ⟨first, others, split⟩ := List.exists_cons_of_ne_nil (segments_ne_nil rest)
        have grown : segments (char :: rest) = (char :: first) :: others := by
          rw [segments, if_neg slash, split]
        rw [grown]
        by_cases here : char :: first = ['.']
        · simp [leading, slash, here, component?]
        · have leads : Leads (char :: first) := ⟨List.cons_ne_nil _ _, here⟩
          simp [leading, slash, here, component?_of_leads leads]

theorem ne_stepOf_of_mem_lead {path : List Char} {front : Component} (isLead : front ∈ lead path)
    (segment : List Char) : front ≠ stepOf segment := by
  rintro rfl
  rw [lead, stepOf] at isLead
  split at isLead
  · split at isLead <;> cases isLead
  · split at isLead
    · split at isLead <;> cases isLead
    · cases isLead

/-- Paths are the same as spelled if they begin alike and have the same steps. -/
theorem components_eq_iff {left right : List Char} :
    components left = components right ↔ lead left = lead right ∧ steps left = steps right := by
  rw [components_eq, components_eq]
  constructor
  · intro same
    cases leadLeft : lead left with
    | none =>
        cases leadRight : lead right with
        | none =>
            rw [leadLeft, leadRight] at same
            exact ⟨rfl, stepOf_injective.list_map same⟩
        | some front =>
            rw [leadLeft, leadRight] at same
            have member : front ∈ (steps left).map stepOf := by
              rw [show (steps left).map stepOf = _ from same]
              exact List.mem_cons_self
            obtain ⟨segment, -, isStep⟩ := List.mem_map.mp member
            exact absurd isStep.symm (ne_stepOf_of_mem_lead leadRight segment)
    | some front =>
        cases leadRight : lead right with
        | none =>
            rw [leadLeft, leadRight] at same
            have member : front ∈ (steps right).map stepOf := by
              rw [show (steps right).map stepOf = _ from same.symm]
              exact List.mem_cons_self
            obtain ⟨segment, -, isStep⟩ := List.mem_map.mp member
            exact absurd isStep.symm (ne_stepOf_of_mem_lead leadLeft segment)
        | some other =>
            rw [leadLeft, leadRight] at same
            obtain ⟨rfl, behind⟩ := List.cons.inj same
            exact ⟨rfl, stepOf_injective.list_map behind⟩
  · rintro ⟨begins, same⟩
    rw [begins, same]

/-- Of relative paths with the same steps only a `.` in front tells. -/
theorem components_eq_iff_of_steps {left right : List Char} (relative : isAbsolute left = false)
    (relativeRight : isAbsolute right = false) (same : steps left = steps right) :
    components left = components right ↔ beginsHere left = beginsHere right := by
  rw [components_eq_iff, lead, lead, relative, relativeRight]
  cases beginsHere left <;> cases beginsHere right <;> simp [same]

/-! ## Segments -/

theorem not_mem_of_mem_segments {path segment : List Char} (member : segment ∈ segments path) :
    '/' ∉ segment := by
  induction path generalizing segment with
  | nil =>
      rw [List.mem_singleton.mp member]
      exact List.not_mem_nil
  | cons char rest ih =>
      rw [segments] at member
      split at member
      · rcases List.mem_cons.mp member with rfl | later
        · exact List.not_mem_nil
        · exact ih later
      · rename_i solid
        split at member
        · rw [List.mem_singleton.mp member, List.mem_singleton]
          exact fun slash => solid slash.symm
        · rename_i first others split
          rcases List.mem_cons.mp member with rfl | later
          · rw [List.mem_cons, not_or]
            exact ⟨fun slash => solid slash.symm, ih (split ▸ List.mem_cons_self)⟩
          · exact ih (split ▸ List.mem_cons_of_mem first later)

theorem segments_append_slash {segment : List Char} (solid : '/' ∉ segment) (rest : List Char) :
    segments (segment ++ '/' :: rest) = segment :: segments rest := by
  induction segment with
  | nil => rw [List.nil_append, segments, if_pos rfl]
  | cons char segment ih =>
      obtain ⟨apart, others⟩ := not_or.mp (mt List.mem_cons.mpr solid)
      rw [List.cons_append, segments, if_neg (Ne.symm apart), ih others]

theorem segments_of_not_mem {segment : List Char} (solid : '/' ∉ segment) :
    segments segment = [segment] := by
  induction segment with
  | nil => rfl
  | cons char segment ih =>
      obtain ⟨apart, others⟩ := not_or.mp (mt List.mem_cons.mpr solid)
      rw [segments, if_neg (Ne.symm apart), ih others]

/-- Segments are found again. -/
theorem segments_join {parts : List (List Char)} (some : parts ≠ [])
    (solid : ∀ segment ∈ parts, '/' ∉ segment) : segments (join parts) = parts := by
  induction parts with
  | nil => exact absurd rfl some
  | cons segment rest ih =>
      obtain ⟨isSolid, others⟩ := List.forall_mem_cons.mp solid
      cases rest with
      | nil => exact segments_of_not_mem isSolid
      | cons second rest =>
          rw [join, segments_append_slash isSolid, ih (List.cons_ne_nil _ _) others]
          exact List.cons_ne_nil _ _

/-! ## Extensions -/

theorem mem_of_mem_stem {name : List Char} {char : Char} (member : char ∈ stem name) :
    char ∈ name := by
  rw [stem] at member
  split at member
  · exact member
  · exact member
  · rename_i mark front _ found
    have behind : char ∈ name.reverse.dropWhile (· ≠ '.') := by
      rw [found]
      exact List.mem_cons_of_mem mark (List.mem_reverse.mp member)
    exact List.mem_reverse.mp ((List.dropWhile_sublist _).mem behind)

/-- A path that ends in a name gets its extension there. -/
theorem segments_withExtension {path name extension : List Char} {front : List (List Char)}
    (ends : segments path = front ++ [name]) (leads : Leads name) (down : name ≠ ['.', '.'])
    (solid : '/' ∉ extension) :
    segments (withExtension extension path) =
      front ++ [if stem name = ['.'] then ['.', '.'] else stem name ++ '.' :: extension] := by
  have slashless : ∀ segment ∈ front ++ [name], '/' ∉ segment := fun segment member =>
    not_mem_of_mem_segments (ends ▸ member)
  obtain ⟨inFront, inName⟩ := List.forall_mem_append.mp slashless
  have backward : ((segments path).reverse.dropWhile fun segment =>
      segment = [] ∨ segment = ['.']) = name :: front.reverse := by
    rw [ends, List.reverse_append, List.reverse_singleton, List.singleton_append,
      List.dropWhile_cons_of_neg]
    rw [decide_eq_true_eq, not_or]
    exact leads
  have isName : (segments path).reverse.head? = some name := by
    rw [ends, List.reverse_append, List.reverse_singleton]
    rfl
  rw [withExtension]
  simp only [backward, isName, and_true]
  rw [if_neg down]
  split
  · rw [List.reverse_cons, List.reverse_reverse]
    apply segments_join (by simp)
    exact List.forall_mem_append.mpr ⟨inFront, List.forall_mem_singleton.mpr (by decide)⟩
  · rw [List.reverse_cons, List.reverse_reverse]
    apply segments_join (by simp)
    refine List.forall_mem_append.mpr ⟨inFront, List.forall_mem_singleton.mpr ?_⟩
    rw [List.mem_append, List.mem_cons, not_or, not_or]
    exact ⟨fun member => inName name (List.mem_singleton_self name) (mem_of_mem_stem member),
      by decide, solid⟩

end Path

namespace Disk

variable {disk : Disk} {here place : Place} {path : String}

/-- Where steps lead from a place, if nothing is in the way. -/
def walk (here : Place) (names : List String) : Place :=
  names.foldl (fun place name => if name = ".." then place.dropLast else place ++ [name]) here

theorem walk_of_not_mem {names : List String} (down : ".." ∉ names) (here : Place) :
    walk here names = here ++ names := by
  induction names generalizing here with
  | nil => exact (List.append_nil here).symm
  | cons name rest ih =>
      obtain ⟨apart, others⟩ := not_or.mp (mt List.mem_cons.mpr down)
      have first : walk here (name :: rest) = walk (here ++ [name]) rest := by
        rw [walk, List.foldl_cons, if_neg (Ne.symm apart)]
        rfl
      rw [first, ih others, List.append_assoc, List.singleton_append]

/-- A path that leads anywhere leads where its names do. -/
theorem place_of_follow {names : List String} {target : Target}
    (followed : disk.follow here names = .ok target) :
    target.place = walk here (names.filter fun name => ¬(name = "" ∨ name = ".")) := by
  induction names generalizing here with
  | nil =>
      cases followed
      rfl
  | cons name rest ih =>
      rw [follow] at followed
      split at followed
      · rename_i skipped
        rw [List.filter_cons_of_neg (by rwa [decide_eq_true_eq, not_not])]
        exact ih followed
      · rename_i named
        rw [List.filter_cons_of_pos (by rwa [decide_eq_true_eq])]
        split at followed
        · rename_i up
          rw [walk, List.foldl_cons, if_pos up]
          exact ih followed
        · rename_i down
          rw [walk, List.foldl_cons, if_neg down]
          split at followed
          · rename_i last
            cases followed
            have nothing : (rest.filter fun name => ¬(name = "" ∨ name = ".")) = [] := by
              rw [List.filter_eq_nil_iff]
              intro other member
              have empty := List.all_eq_true.mp last other member
              simp_all
            rw [nothing]
            rfl
          · split at followed
            · exact ih followed
            all_goals cases followed

/-- The names of a path's steps. -/
def stepNames (path : String) : List String :=
  (Path.steps path.toList).map String.ofList

theorem stepNames_eq (path : String) :
    stepNames path = ((Path.segments path.toList).map String.ofList).filter
      fun name => ¬(name = "" ∨ name = ".") := by
  rw [stepNames, Path.steps, List.filter_map]
  congr 1
  apply List.filter_congr
  intro segment _
  have empty : String.ofList segment = "" ↔ segment = [] := by
    rw [← String.toList_inj, String.toList_ofList]
    rfl
  have dot : String.ofList segment = "." ↔ segment = ['.'] := by
    rw [← String.toList_inj, String.toList_ofList]
    rfl
  rw [Function.comp_apply, decide_eq_decide, empty, dot, not_or]
  rfl

/-- A path that leads anywhere leads where its steps do. -/
theorem place_of_target {target : Target} (led : disk.target path = .ok target) :
    target.place =
      walk (if Path.isAbsolute path.toList then [] else disk.home) (stepNames path) := by
  simp only [Path.isAbsolute, decide_eq_true_eq]
  rw [stepNames_eq]
  exact place_of_follow (follow_of_target led)

theorem steps_eq_of_stepNames {left right : String} (same : stepNames left = stepNames right) :
    Path.steps left.toList = Path.steps right.toList := by
  have injective : Function.Injective String.ofList := fun _ _ => String.ofList_inj.mp
  exact injective.list_map same

theorem not_mem_stepNames (down : ['.', '.'] ∉ Path.steps path.toList) :
    ".." ∉ stepNames path := by
  intro member
  obtain ⟨segment, isStep, up⟩ := List.mem_map.mp member
  obtain rfl : segment = ['.', '.'] := String.ofList_inj.mp up
  exact down isStep

/-- A path to a file ends in the file's name. -/
theorem exists_name_of_target (led : disk.target path = .ok ⟨place, false⟩) :
    ∃ front name, Path.segments path.toList = front ++ [name] ∧
      place.getLast? = some (String.ofList name) ∧ Path.Leads name ∧ name ≠ ['.', '.'] := by
  obtain ⟨front, name, names, last, some, dotless, down⟩ :=
    exists_name_of_follow (follow_of_target led)
  obtain ⟨front, behind, split, -, isLast⟩ := List.map_eq_append_iff.mp names
  obtain ⟨name, rfl, rfl⟩ := List.map_eq_singleton_iff.mp isLast
  refine ⟨front, name, split, last, ⟨?_, ?_⟩, ?_⟩
  · rintro rfl
    exact some rfl
  · rintro rfl
    exact dotless rfl
  · rintro rfl
    exact down rfl

end Disk

end BitSerial
