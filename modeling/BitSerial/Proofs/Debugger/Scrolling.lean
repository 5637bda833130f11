import BitSerial.Proofs.Debugger.MemoryView
import BitSerial.Proofs.Machine.Sizes

/-!
# Scrolling

The view starts at the first word of the program and is moved by scrolling only; a reset
leaves it where it is.  Scrolling keeps to main memory.  The start does not: a program of no
words begins where main memory ends, so there is nothing to see until the view is scrolled,
although the counter has gone round to the first word.
-/

namespace BitSerial

/-- The words of a program end where main memory ends. -/
theorem Machine.base_of_loadWords {geometry : Geometry} {machine after : Machine geometry}
    {words : List Word} (loaded : machine.loadWords words = (.ok (), after)) :
    after.base + words.length = geometry.mainWords := by
  rw [loadWords] at loaded
  split at loaded
  · cases loaded
  · rename_i fits
    cases loaded
    exact Nat.sub_add_cancel (Nat.le_of_not_lt fits)

namespace Debugger

variable {geometry : Geometry} {first debugger : Debugger geometry} {program : Program}
  {height : Nat}

/-! ## Requests -/

/-- Something asked of a debugger. -/
inductive Request
  | act (action : Action)
  | setBreakpoint (address : Nat)
  | reset

/-- The debugger after a request. -/
def handle (debugger : Debugger geometry) : Request → Debugger geometry
  | .act action => debugger.act action
  | .setBreakpoint address => (debugger.setBreakpoint address).2
  | .reset => debugger.reset

/-- The debugger after some requests. -/
def handleAll (debugger : Debugger geometry) (requests : List Request) : Debugger geometry :=
  requests.foldl handle debugger

/-- Whether a request moves the view. -/
def Request.scrolls : Request → Bool
  | .act .scrollUp | .act .scrollDown => true
  | _ => false

theorem Reachable.handle (reachable : debugger.Reachable) (request : Request) :
    (debugger.handle request).Reachable := by
  cases request with
  | act action => exact reachable.act action
  | setBreakpoint address => exact reachable.setBreakpoint address
  | reset => exact reachable.reset

theorem Reachable.handleAll (reachable : debugger.Reachable) (requests : List Request) :
    (debugger.handleAll requests).Reachable := by
  induction requests generalizing debugger with
  | nil => exact reachable
  | cons request rest ih => exact ih (reachable.handle request)

/-! ## What moves the view -/

@[simp]
theorem scroll_heed (debugger : Debugger geometry) : debugger.heed.scroll = debugger.scroll := by
  rw [heed]
  split <;> rfl

@[simp]
theorem scroll_tick (debugger : Debugger geometry) : debugger.tick.scroll = debugger.scroll := by
  rw [tick]
  split
  · split
    · rfl
    · exact (scroll_heed debugger.step).trans (scroll_step debugger)
  · rfl

@[simp]
theorem scroll_toggleBreakpoint (debugger : Debugger geometry) :
    debugger.toggleBreakpoint.scroll = debugger.scroll := by
  rw [toggleBreakpoint]
  split <;> rfl

/-- A reset does not look for the program again. -/
@[simp]
theorem scroll_reset (debugger : Debugger geometry) : debugger.reset.scroll = debugger.scroll := by
  rw [reset]
  split <;> rfl

theorem scroll_handle_of_not_scrolls {request : Request} (still : request.scrolls = false) :
    (debugger.handle request).scroll = debugger.scroll := by
  cases request with
  | act action =>
      cases action with
      | step => exact scroll_step debugger
      | tick => exact scroll_tick debugger
      | toggleBreakpoint => exact scroll_toggleBreakpoint debugger
      | scrollUp | scrollDown => cases still
      | run | pause | setBreakpoints | viewMemory => rfl
  | setBreakpoint address => rfl
  | reset => exact scroll_reset debugger

/-- From behind the last word as well as from any other, scrolling goes to a word. -/
theorem scroll_handle_lt {request : Request} (positive : 0 < geometry.mainWords)
    (near : debugger.scroll ≤ geometry.mainWords) (scrolls : request.scrolls = true) :
    (debugger.handle request).scroll < geometry.mainWords := by
  cases request with
  | act action =>
      cases action with
      | scrollUp =>
          show debugger.scroll - 1 < geometry.mainWords
          omega
      | scrollDown =>
          show min (debugger.scroll + 1) (geometry.mainWords - 1) < geometry.mainWords
          omega
      | step | tick | run | pause | toggleBreakpoint | setBreakpoints | viewMemory => cases scrolls
  | setBreakpoint | reset => cases scrolls

/-- A request leaves the view behind the last word only if it finds it there and does not
scroll. -/
theorem scroll_handle (positive : 0 < geometry.mainWords)
    (near : debugger.scroll ≤ geometry.mainWords) (request : Request) :
    (debugger.handle request).scroll ≤ geometry.mainWords ∧
      ((debugger.handle request).scroll = geometry.mainWords ↔
        debugger.scroll = geometry.mainWords ∧ request.scrolls = false) := by
  cases scrolls : request.scrolls with
  | false =>
      rw [scroll_handle_of_not_scrolls scrolls]
      simp [near]
  | true =>
      have inside := scroll_handle_lt positive near scrolls
      simp [inside.le, inside.ne]

/-- What a single request does to the view decides for all of them. -/
theorem scroll_handleAll (positive : 0 < geometry.mainWords)
    (near : debugger.scroll ≤ geometry.mainWords) (requests : List Request) :
    (debugger.handleAll requests).scroll ≤ geometry.mainWords ∧
      ((debugger.handleAll requests).scroll = geometry.mainWords ↔
        debugger.scroll = geometry.mainWords ∧
          ∀ request ∈ requests, request.scrolls = false) := by
  induction requests generalizing debugger with
  | nil => exact ⟨near, by simp [handleAll]⟩
  | cons request rest ih =>
      obtain ⟨nearNext, behind⟩ := scroll_handle positive near request
      obtain ⟨nearLast, behindLast⟩ := ih nearNext
      refine ⟨nearLast, behindLast.trans ?_⟩
      rw [behind, and_assoc, List.forall_mem_cons]

/-! ## Where the view starts -/

theorem scroll_of_start (started : start geometry program = .ok first) :
    first.scroll = first.machine.base := by
  rw [start] at started
  split at started
  · cases started
  · split at started
    · cases started
    · cases started
      rfl

/-- The words of the program are those from the view on. -/
theorem scroll_add_length (started : start geometry program = .ok first) :
    first.scroll + program.words.length = geometry.mainWords := by
  obtain ⟨_, _, loaded, _⟩ := exists_of_start started
  rw [scroll_of_start started, Machine.base_of_loadWords (Machine.loadWords_of_loadProgram loaded)]

/-! ## What is in view -/

theorem memoryRows_eq_nil_iff (reachable : debugger.machine.Reachable) (visible : 0 < height) :
    debugger.memoryRows height = [] ↔ geometry.mainWords ≤ debugger.scroll := by
  have addresses : (debugger.memoryRows height).map MemoryRow.address =
      List.Ico debugger.scroll (min geometry.mainWords (debugger.scroll + height)) := by
    rw [memoryRows_eq]
    exact address_filterMap_memoryRow reachable fun address => lt_of_mem_view
  rw [← List.map_eq_nil_iff (f := MemoryRow.address), addresses, List.Ico.eq_empty_iff]
  omega

theorem memoryRows?_eq_none_iff :
    debugger.memoryRows? height = none ↔ countLimit ≤ debugger.scroll + height := by
  rw [memoryRows?, Option.map_eq_none_iff, Count.add?_eq_none_iff]

theorem memoryRows?_eq_nil_iff (reachable : debugger.machine.Reachable) (visible : 0 < height) :
    debugger.memoryRows? height = some [] ↔
      geometry.mainWords ≤ debugger.scroll ∧ debugger.scroll + height < countLimit := by
  rw [memoryRows?_eq, Option.ite_none_right_eq_some, Option.some_inj,
    memoryRows_eq_nil_iff reachable visible, and_comm]

/-- The counter stays on main memory, and so does the view but for one case: from the start of
an empty program until it is first scrolled it stands behind the last word.  The view is empty
exactly if it stands there, and not to be told at all exactly if it is so high that the address
behind its last row is no count. -/
theorem view_on_memory (started : start geometry program = .ok first) (requests : List Request) :
    (first.handleAll requests).machine.counter < geometry.mainWords ∧
    (first.handleAll requests).scroll ≤ geometry.mainWords ∧
    ((first.handleAll requests).scroll = geometry.mainWords ↔
      program.words = [] ∧ ∀ request ∈ requests, request.scrolls = false) ∧
    ∀ height, 0 < height →
      ((first.handleAll requests).memoryRows? height = some [] ↔
        (first.handleAll requests).scroll = geometry.mainWords ∧
          (first.handleAll requests).scroll + height < countLimit) ∧
      ((first.handleAll requests).memoryRows? height = none ↔
        countLimit ≤ (first.handleAll requests).scroll + height) := by
  have reachable := ((Reachable.start started).handleAll requests).machine
  have covered := scroll_add_length started
  have start : first.scroll ≤ geometry.mainWords := by omega
  obtain ⟨near, behind⟩ := scroll_handleAll reachable.valid.mainWords_pos start requests
  have empty : first.scroll = geometry.mainWords ↔ program.words = [] := by
    rw [← List.length_eq_zero_iff]
    omega
  rw [empty] at behind
  refine ⟨(first.handleAll requests).machine.counter.isLt, near, behind, ?_⟩
  intro height visible
  refine ⟨?_, memoryRows?_eq_none_iff⟩
  rw [memoryRows?_eq_nil_iff reachable visible]
  omega

/-- The view of an empty program comes back with the first scroll, not with a step or a reset. -/
theorem view_on_memory_afterScroll :
    ∃ first : Debugger {}, start {} ⟨64, [], .empty⟩ = .ok first ∧
      (first.handleAll [.act .step, .reset]).scroll = 64 ∧
      (first.handleAll [.act .step, .reset]).memoryRows? 5 = some [] ∧
      (first.handleAll [.act .step, .reset, .act .scrollUp]).scroll < 64 ∧
      (first.handleAll [.act .step, .reset, .act .scrollUp]).memoryRows? 5 ≠ some [] ∧
      (first.handleAll [.act .step, .reset]).memoryRows? 0xFFFFFFFFFFFFFFFF = none := by
  obtain ⟨first, started⟩ : ∃ first : Debugger {}, start {} ⟨64, [], .empty⟩ = .ok first :=
    ⟨_, rfl⟩
  obtain ⟨-, -, resting, shownResting⟩ := view_on_memory started [.act .step, .reset]
  obtain ⟨-, near, scrolled, shown⟩ :=
    view_on_memory started [.act .step, .reset, .act .scrollUp]
  have behind : (first.handleAll [.act .step, .reset]).scroll = 64 :=
    resting.mpr ⟨rfl, by decide⟩
  have moved : (first.handleAll [.act .step, .reset, .act .scrollUp]).scroll ≠ 64 := by
    intro same
    exact absurd (scrolled.mp same).2 (by decide)
  have inside : (first.handleAll [.act .step, .reset, .act .scrollUp]).scroll < 64 :=
    Nat.lt_of_le_of_ne near moved
  refine ⟨first, started, behind, ?_, inside, ?_, ?_⟩
  · exact (shownResting 5 (by decide)).1.mpr ⟨behind, by rw [behind]; decide⟩
  · intro none
    exact moved ((shown 5 (by decide)).1.mp none).1
  · exact (shownResting _ (by decide)).2.mpr (by rw [behind]; decide)

/-- With an empty program the counter is on main memory and the view is not. -/
theorem view_behind_memory :
    ∃ first : Debugger { mainWords := 1 }, start { mainWords := 1 } ⟨1, [], .empty⟩ = .ok first ∧
      first.machine.counter = 0 ∧ ¬ first.scroll < 1 ∧ first.memoryRows? 1 = some [] := by
  refine ⟨_, rfl, rfl, ?_, rfl⟩
  decide

end Debugger

end BitSerial
