import BitSerial.Proofs.Assembly.Labels
import BitSerial.Proofs.Machine.Histories
import BitSerial.Session

/-!
# Session histories

A session resets its machine before it loads, and a reset undoes whatever was done to the
machine.  A source that assembles is one that the machine loads, so a load fails only where
it has not changed anything yet, and what it leaves depends on the source alone.  The
program that a session remembers is the last one it loaded, so a reset brings back what
that load left.
-/

namespace BitSerial.Session

variable {geometry : Geometry} {fresh loaded : Machine geometry} {first session : Session geometry}
  {source : String} {program : Program}

/-! ## Requests -/

/-- Something asked of a session that may change it. -/
inductive Request
  | load (source : String)
  | step
  | run (maximum : UInt32)
  | reset

/-- The session after a request, whether it was granted or refused. -/
def handle (session : Session geometry) : Request → Session geometry
  | .load source => (session.loadSource source).2
  | .step => session.step.2
  | .run maximum => (session.run maximum).2
  | .reset => session.reset.2

/-- The session after some requests. -/
def handleAll (session : Session geometry) (requests : List Request) : Session geometry :=
  requests.foldl handle session

/-- Requests among which no load is of a source that assembles. -/
def LoadsNothing (geometry : Geometry) (requests : List Request) : Prop :=
  ∀ source, .load source ∈ requests → ∃ error, Program.assemble geometry source = .error error

theorem handleAll_append (session : Session geometry) (before behind : List Request) :
    session.handleAll (before ++ behind) = (session.handleAll before).handleAll behind :=
  List.foldl_append

/-- A fresh machine that remembers no program. -/
theorem start_eq_ok_iff :
    start geometry = .ok first ↔
      Machine.build? geometry = .ok first.machine ∧ first.program = none := by
  rcases first with ⟨machine, program⟩
  rw [start]
  cases Machine.build? geometry with
  | error error => simp [Except.map]
  | ok fresh => simp [Except.map, eq_comm]

/-! ## What requests keep -/

/-- A session of which only requests were asked: its machine has been handled since it was
built, and a fresh one loads the program that the session remembers. -/
structure Descends (fresh : Machine geometry) (session : Session geometry) : Prop where
  handled : fresh.Handled session.machine
  loads : ∀ program, session.program = some program →
    ∃ loaded, fresh.loadProgram program = (.ok (), loaded)

theorem Descends.machine (descends : session.Descends fresh) {after : Machine geometry}
    (handles : session.machine.Handles after) :
    Descends fresh { session with machine := after } where
  handled := descends.handled.tail handles
  loads := descends.loads

/-- A load of a source that does not assemble changes nothing. -/
theorem loadSource_of_error {error : AssemblyError} (session : Session geometry)
    (refused : Program.assemble geometry source = .error error) :
    session.loadSource source = (.error (.assembly error), session) := by
  rw [loadSource, refused]

/-- A load of one that does leaves what it leaves on a fresh machine. -/
theorem Descends.loadSource_eq (built : Machine.build? geometry = .ok fresh)
    (descends : session.Descends fresh)
    (assembled : Program.assemble geometry source = .ok program)
    (isLoaded : fresh.loadProgram program = (.ok (), loaded)) :
    session.loadSource source = (.ok program.size, ⟨loaded, some program⟩) := by
  rw [loadSource, assembled, descends.handled.reset_eq built]
  dsimp only
  rw [isLoaded]

/-- A reset leaves a fresh machine, loaded with the program that the session remembers. -/
theorem Descends.reset_eq_of_none (built : Machine.build? geometry = .ok fresh)
    (descends : session.Descends fresh) (program : session.program = none) :
    session.reset = (.ok (), ⟨fresh, none⟩) := by
  rw [reset, program, descends.handled.reset_eq built]

theorem Descends.reset_eq_of_some (built : Machine.build? geometry = .ok fresh)
    (descends : session.Descends fresh) (remembered : session.program = some program)
    (isLoaded : fresh.loadProgram program = (.ok (), loaded)) :
    session.reset = (.ok (), ⟨loaded, some program⟩) := by
  rw [reset, remembered, descends.handled.reset_eq built]
  dsimp only
  rw [isLoaded]

/-- Whatever assembles is loaded. -/
theorem exists_loaded_of_assemble (built : Machine.build? geometry = .ok fresh)
    (assembled : Program.assemble geometry source = .ok program) :
    ∃ loaded, fresh.loadProgram program = (.ok (), loaded) := by
  obtain ⟨loaded, isLoaded, -⟩ := (Program.of_assemble assembled).loaded (.built built)
  exact ⟨loaded, isLoaded⟩

theorem Descends.of_loaded (isLoaded : fresh.loadProgram program = (.ok (), loaded)) :
    Descends fresh ⟨loaded, some program⟩ where
  handled := .single (.loadProgram isLoaded)
  loads _ remembered := ⟨loaded, Option.some.inj remembered ▸ isLoaded⟩

theorem Descends.handle (built : Machine.build? geometry = .ok fresh)
    (descends : session.Descends fresh) (request : Request) :
    Descends fresh (session.handle request) := by
  cases request with
  | load source =>
      show Descends fresh (session.loadSource source).2
      cases assembled : Program.assemble geometry source with
      | error error =>
          rw [loadSource_of_error session assembled]
          exact descends
      | ok program =>
          obtain ⟨loaded, isLoaded⟩ := exists_loaded_of_assemble built assembled
          rw [descends.loadSource_eq built assembled isLoaded]
          exact .of_loaded isLoaded
  | step => exact descends.machine (.step session.machine)
  | run maximum => exact descends.machine (.runLimited maximum.toUInt64 session.machine)
  | reset =>
      show Descends fresh session.reset.2
      cases remembered : session.program with
      | none =>
          rw [descends.reset_eq_of_none built remembered]
          exact ⟨.refl, nofun⟩
      | some program =>
          obtain ⟨loaded, isLoaded⟩ := descends.loads program remembered
          rw [descends.reset_eq_of_some built remembered isLoaded]
          exact .of_loaded isLoaded

theorem Descends.handleAll (built : Machine.build? geometry = .ok fresh)
    (descends : session.Descends fresh) (requests : List Request) :
    Descends fresh (session.handleAll requests) := by
  induction requests generalizing session with
  | nil => exact descends
  | cons request rest ih => exact ih (descends.handle built request)

/-! ## The program remembered -/

/-- Only a load of a source that assembles changes the program that a session remembers. -/
theorem program_handle {request : Request} (session : Session geometry)
    (nothing : LoadsNothing geometry [request]) :
    (session.handle request).program = session.program := by
  cases request with
  | load source =>
      obtain ⟨error, refused⟩ := nothing source List.mem_cons_self
      show (session.loadSource source).2.program = session.program
      rw [loadSource_of_error session refused]
  | step => rfl
  | run maximum => rfl
  | reset =>
      show session.reset.2.program = session.program
      rw [reset]
      split <;> rfl

theorem program_handleAll {requests : List Request} (session : Session geometry)
    (nothing : LoadsNothing geometry requests) :
    (session.handleAll requests).program = session.program := by
  induction requests generalizing session with
  | nil => rfl
  | cons request rest ih =>
      have first : LoadsNothing geometry [request] := fun source member =>
        nothing source (List.mem_singleton.mp member ▸ List.mem_cons_self)
      have others : LoadsNothing geometry rest := fun source member =>
        nothing source (List.mem_cons_of_mem request member)
      exact (ih (session.handle request) others).trans (program_handle session first)

/-- A load that is granted was of a source that assembles. -/
theorem exists_assembled_of_granted {size : Nat}
    (granted : (session.loadSource source).1 = .ok size) :
    ∃ program, Program.assemble geometry source = .ok program := by
  cases assembled : Program.assemble geometry source with
  | ok program => exact ⟨program, rfl⟩
  | error error =>
      rw [loadSource_of_error session assembled] at granted
      cases granted

/-! ## Whatever was asked -/

/-- Whatever was asked of a session since it was started, a load of a source that does not
assemble is refused and changes nothing, and a load of any other says how many words the
program has and leaves a fresh machine with that program loaded.  A reset is never refused
and leaves the session that the last granted load left, or the one at the start if there was
none. -/
theorem requests_forgotten (started : start geometry = .ok first) (requests : List Request) :
    (Machine.build? geometry = .ok first.machine ∧ first.program = none) ∧
    (∀ source error, Program.assemble geometry source = .error error →
      (first.handleAll requests).loadSource source =
        (.error (.assembly error), first.handleAll requests)) ∧
    (∀ source program, Program.assemble geometry source = .ok program →
      ∃ loaded, first.machine.loadProgram program = (.ok (), loaded) ∧
        (first.handleAll requests).loadSource source =
          (.ok program.size, ⟨loaded, some program⟩)) ∧
    (first.handleAll requests).reset.1 = .ok () ∧
    (LoadsNothing geometry requests → (first.handleAll requests).reset.2 = first) ∧
    ∀ before source behind, requests = before ++ .load source :: behind →
      (∃ size, ((first.handleAll before).loadSource source).1 = .ok size) →
        LoadsNothing geometry behind →
          (first.handleAll requests).reset.2 = ((first.handleAll before).loadSource source).2 := by
  obtain ⟨built, nothingYet⟩ := start_eq_ok_iff.mp started
  have atStart : first.Descends first.machine := ⟨.refl, by simp [nothingYet]⟩
  have descends := atStart.handleAll built
  refine ⟨⟨built, nothingYet⟩, ?_, ?_, ?_, ?_, ?_⟩
  · intro source error refused
    exact loadSource_of_error _ refused
  · intro source program assembled
    obtain ⟨loaded, isLoaded⟩ := exists_loaded_of_assemble built assembled
    exact ⟨loaded, isLoaded, (descends requests).loadSource_eq built assembled isLoaded⟩
  · cases remembered : (first.handleAll requests).program with
    | none => rw [(descends requests).reset_eq_of_none built remembered]
    | some program =>
        obtain ⟨loaded, isLoaded⟩ := (descends requests).loads program remembered
        rw [(descends requests).reset_eq_of_some built remembered isLoaded]
  · intro nothing
    have remembered := (program_handleAll first nothing).trans nothingYet
    rw [(descends requests).reset_eq_of_none built remembered, ← nothingYet]
  · rintro before source behind rfl ⟨size, granted⟩ nothing
    obtain ⟨program, assembled⟩ := exists_assembled_of_granted granted
    obtain ⟨loaded, isLoaded⟩ := exists_loaded_of_assemble built assembled
    have left := (descends before).loadSource_eq built assembled isLoaded
    have remembered :
        (first.handleAll (before ++ .load source :: behind)).program = some program := by
      rw [handleAll_append]
      refine (program_handleAll _ nothing).trans ?_
      show ((first.handleAll before).loadSource source).2.program = some program
      rw [left]
    rw [(descends _).reset_eq_of_some built remembered isLoaded, left]

/-- A session whose program wrote over its own halt and that then refused a source: a reset
brings the halt back. -/
theorem requests_forgotten_rewritten :
    ∃ first session : Session {}, start {} = .ok first ∧
      session = first.handleAll [.load "STP 63\nNOP\nHLT", .step, .load "BAD"] ∧
      session.machine.view.main 63 = 0 ∧
      (session.loadSource "BAD").2 = session ∧
      session.reset = (.ok (), (first.loadSource "STP 63\nNOP\nHLT").2) ∧
      session.reset.2.machine.view.main 63 = 0xFF00000000#40 := by
  obtain ⟨first, started⟩ : ∃ first, start {} = .ok first := ⟨_, rfl⟩
  have assembled : Program.assemble {} "STP 63\nNOP\nHLT" =
      .ok ⟨61, [0x190000003F#40, 0x0000000000#40, 0xFF00000000#40], .empty⟩ := by
    decide +kernel
  have refused : Program.assemble {} "BAD" = .error (.unknownMnemonic 1 "BAD") := by
    decide +kernel
  obtain ⟨⟨built, -⟩, -, loads, -⟩ := requests_forgotten started []
  obtain ⟨loaded, isLoaded, left⟩ := loads _ _ assembled
  obtain ⟨-, rejects, -, granted, -, restores⟩ :=
    requests_forgotten started [.load "STP 63\nNOP\nHLT", .step, .load "BAD"]
  have nothing : LoadsNothing {} [.step, .load "BAD"] := by
    intro source member
    obtain rfl : source = "BAD" := by simpa using member
    exact ⟨_, refused⟩
  have restored := restores [] _ _ rfl ⟨_, congrArg Prod.fst left⟩ nothing
  have stepped : (first.handleAll [.load "STP 63\nNOP\nHLT", .step, .load "BAD"]).machine =
      loaded.step.2 := by
    have last : first.handleAll [.load "STP 63\nNOP\nHLT", .step, .load "BAD"] =
        ((first.handleAll []).loadSource "STP 63\nNOP\nHLT").2.step.2.handle (.load "BAD") := rfl
    rw [last, left, handle, loadSource_of_error _ refused]
    rfl
  obtain ⟨_, isFresh⟩ := Machine.eq_fresh_of_build built
  rw [isFresh] at isLoaded
  have represents := (Machine.represents_fresh Geometry.valid_standard).loadProgram isLoaded
  refine ⟨first, _, started, rfl, ?_, congrArg Prod.snd (rejects _ _ refused),
    Prod.ext granted restored, ?_⟩
  · rw [stepped, represents.step.2.view_eq]
    decide +kernel
  · rw [restored, left, represents.view_eq]
    decide +kernel

end BitSerial.Session
